import Linewise.Proofs.Nesting.Combinator
import Linewise.Proofs.Placement.Combinator
import Linewise.Proofs.Progress.Tracing

/-!
# Parsers that go on

However a parser ends, it has passed over tokens and nothing else has changed: the levels
that were open are open again and the diagnostics from before are still noted.  Where it
gives a value it may be known to have passed over a token that is no comment, and what it
gives is traced back to the tokens.  A fault is met only where there is an excuse for it.
-/

namespace Linewise

open Linewise.Parser

/-- Whether a reply is as asked for; of a fault it is asked whether it may be met. -/
def Reply.Meets {α : Type} (ok : α -> Cursor -> Prop) (error : Cursor -> Prop)
    (fault : Fault -> Prop) : Reply α -> Prop
  | .ok value cursor => ok value cursor
  | .error _ cursor => error cursor
  | .fault found => fault found

theorem Reply.Meets.mono {α : Type} {ok ok' : α -> Cursor -> Prop} {error error' : Cursor -> Prop}
    {fault fault' : Fault -> Prop} {reply : Reply α} (h : reply.Meets ok error fault)
    (hok : forall value d, ok value d -> ok' value d)
    (herror : forall d, error d -> error' d)
    (hfault : forall found, fault found -> fault' found) : reply.Meets ok' error' fault' := by
  cases reply with
  | ok value d => exact hok value d h
  | error diagnostic d => exact herror d h
  | fault found => exact hfault found h

theorem Reply.Meets.imp {α : Type} {ok ok' : α -> Cursor -> Prop} {error : Cursor -> Prop}
    {fault : Fault -> Prop} {reply : Reply α} (h : reply.Meets ok error fault)
    (hok : forall value d, ok value d -> ok' value d) : reply.Meets ok' error fault :=
  h.mono hok (fun _ hd => hd) (fun _ hfault => hfault)

theorem Parser.meets_bind {α β : Type} {first : Parser α} {next : α -> Parser β} {c : Cursor}
    {ok : β -> Cursor -> Prop} {error : Cursor -> Prop} {fault : Fault -> Prop}
    (h : (first c).Meets (fun value d => (next value d).Meets ok error fault) error fault) :
    ((first >>= next) c).Meets ok error fault := by
  rw [bind_apply]
  cases hfirst : first c with
  | ok value d =>
      rw [hfirst] at h
      exact h
  | error diagnostic d =>
      rw [hfirst] at h
      exact h
  | fault found =>
      rw [hfirst] at h
      exact h

/-!
## The way of a cursor
-/

/-- Reading leads from `c` to `d`; if `solid` is set, over a token that is no comment. -/
def Cursor.Reaches (c : Cursor) (solid : Bool) (d : Cursor) : Prop :=
  exists read noted, c.Passage read noted d ∧
    (solid = true -> exists t, t ∈ read ∧ t.isComment = false)

namespace Cursor.Reaches

variable {c d e : Cursor} {solid solid' : Bool} {read : List Token} {noted : List Diagnostic}

theorem passage (h : c.Passage read noted d) : c.Reaches false d := ⟨read, noted, h, by simp⟩

theorem refl (c : Cursor) : c.Reaches false c := passage (Cursor.Passage.refl c)

theorem trans (first : c.Reaches solid d) (second : d.Reaches solid' e) :
    c.Reaches (solid || solid') e := by
  rcases first with ⟨read, noted, hpassage, hsolid⟩
  rcases second with ⟨read', noted', hpassage', hsolid'⟩
  refine ⟨_, _, hpassage.trans hpassage', fun hor => ?_⟩
  rcases Bool.or_eq_true_iff.mp hor with hfirst | hsecond
  · rcases hsolid hfirst with ⟨t, ht, hcomment⟩
    exact ⟨t, List.mem_append_left read' ht, hcomment⟩
  · rcases hsolid' hsecond with ⟨t, ht, hcomment⟩
    exact ⟨t, List.mem_append_right read ht, hcomment⟩

theorem mono (h : c.Reaches solid d) (himp : solid' = true -> solid = true) :
    c.Reaches solid' d := by
  rcases h with ⟨read, noted, hpassage, hsolid⟩
  exact ⟨read, noted, hpassage, fun htrue => hsolid (himp htrue)⟩

theorem weaken (h : c.Reaches solid d) : c.Reaches false d := h.mono (by simp)

theorem length_lt (h : c.Reaches true d) : d.ahead.length < c.ahead.length := by
  rcases h with ⟨read, noted, hpassage, hsolid⟩
  rcases hsolid rfl with ⟨t, ht, _⟩
  have hpos := List.length_pos_of_mem ht
  rw [hpassage.ahead, List.length_append]
  omega

theorem advance (hfinal : c.final.kind = .endOfInput) : c.Reaches false c.advance := by
  rcases Cursor.exists_advance_passage hfinal with ⟨read, hpassage⟩
  exact passage hpassage

theorem advanceToken (hfinal : c.final.kind = .endOfInput) (h : c.kind ≠ .endOfInput) :
    c.Reaches true c.advance := by
  rcases Cursor.significant_of_kind_ne hfinal h with ⟨rest, hs⟩
  exact ⟨_, _, Cursor.advance_passage hfinal h, fun _ =>
    ⟨c.current, by simp, Cursor.isComment_of_significant hs⟩⟩

theorem skipLineBreaks (c : Cursor) : c.Reaches false c.skipLineBreaks := by
  rcases c.skipLineBreaks_passage with ⟨read, hpassage, _⟩
  exact passage hpassage

theorem nested (h : Cursor.Reaches { c with depth := c.depth + 1 } solid d) :
    d.depth = c.depth + 1 ∧ c.Reaches solid { d with depth := c.depth } := by
  rcases h with ⟨read, noted, hpassage, hsolid⟩
  rcases Account.passage_nested hpassage with ⟨hdepth, hpassage⟩
  exact ⟨hdepth, read, noted, hpassage, hsolid⟩

end Cursor.Reaches

/-- The cursor stands in the text that is traced back to. -/
structure Tracing.Fits (T : Tracing) (c : Cursor) : Prop where
  inside : c.ahead <:+ T.text
  final : c.final.kind = .endOfInput

namespace Tracing.Fits

variable {T : Tracing} {c d : Cursor} {solid : Bool}

theorem after (h : T.Fits c) (hway : c.Reaches solid d) : T.Fits d := by
  rcases hway with ⟨read, noted, hpassage, _⟩
  constructor
  · exact (hpassage.ahead ▸ List.suffix_append read d.ahead).trans h.inside
  · rw [hpassage.final]
    exact h.final

theorem deeper (h : T.Fits c) : T.Fits { c with depth := c.depth + 1 } := ⟨h.inside, h.final⟩

theorem mem_current (h : T.Fits c) (hkind : c.kind ≠ .endOfInput) :
    c.current ∈ c.ahead ∧ c.current ∈ T.text := by
  rcases Cursor.significant_of_kind_ne h.final hkind with ⟨rest, hs⟩
  have hmem := Cursor.mem_ahead_of_significant hs
  exact ⟨hmem, h.inside.subset hmem⟩

end Tracing.Fits

/-- From which cursors a fault may be met: from everywhere in front of a text token without
its quotes it may be met that there is one. -/
structure Excuse where
  For : Cursor -> Fault -> Prop
  unquoted : forall {c : Cursor} {t : Token}, t ∈ c.ahead -> ¬ t.Quoted -> For c .unquotedText
  behind : forall {c d : Cursor} {solid : Bool} {fault : Fault}, c.Reaches solid d ->
    For d fault -> For c fault

/-- The reply leads on from `c`, if `solid` is set over a token that is no comment where it is
a value, and the value has the property. -/
def Reply.Leads {α : Type} (E : Excuse) (c : Cursor) (solid : Bool) (P : α -> Prop)
    (reply : Reply α) : Prop :=
  reply.Meets (fun value d => c.Reaches solid d ∧ P value) (fun d => c.Reaches false d) (E.For c)

def Proceeds {α : Type} (T : Tracing) (E : Excuse) (solid : Bool) (P : α -> Prop)
    (parser : Parser α) : Prop :=
  forall c, T.Fits c -> (parser c).Leads E c solid P

def Tries {α : Type} (T : Tracing) (E : Excuse) (P : α -> Prop) (parser : Parser (Option α)) :
    Prop :=
  forall c, T.Fits c -> (parser c).Meets
    (fun found d => (found = none ∧ d = c) ∨ exists value, found = some value ∧ P value ∧
      c.Reaches true d)
    (fun d => c.Reaches false d) (E.For c)

variable {α β : Type} {T : Tracing} {E : Excuse} {solid solid' : Bool} {P : α -> Prop}
  {Q : β -> Prop}

namespace Reply.Leads

variable {c d : Cursor}

theorem imp {P' : α -> Prop} {reply : Reply α} (h : reply.Leads E c solid P)
    (himp : forall value, P value -> P' value) (hsolid : solid' = true -> solid = true) :
    reply.Leads E c solid' P' :=
  Meets.imp h (fun value _ hd => ⟨hd.1.mono hsolid, himp value hd.2⟩)

theorem weaken {reply : Reply α} (h : reply.Leads E c solid P) : reply.Leads E c false P :=
  h.imp (fun _ hvalue => hvalue) (by simp)

theorem behind {reply : Reply β} (hway : c.Reaches solid d) (h : reply.Leads E d solid' Q) :
    reply.Leads E c (solid || solid') Q := by
  apply Meets.mono h
  · rintro value e ⟨hrest, hvalue⟩
    exact ⟨hway.trans hrest, hvalue⟩
  · intro e hrest
    exact (hway.trans hrest).weaken
  · intro fault hfault
    exact E.behind hway hfault

theorem bind {first : Parser α} {next : α -> Parser β} (hfirst : (first c).Leads E c solid P)
    (hnext : forall value d, first c = .ok value d -> c.Reaches solid d -> P value ->
      (next value d).Leads E d solid' Q) :
    ((first >>= next) c).Leads E c (solid || solid') Q := by
  unfold Leads at hfirst
  rw [bind_apply]
  cases hreply : first c with
  | ok value d =>
      rw [hreply] at hfirst
      exact behind hfirst.1 (hnext value d hreply hfirst.1 hfirst.2)
  | error diagnostic d =>
      rw [hreply] at hfirst
      exact hfirst
  | fault found =>
      rw [hreply] at hfirst
      exact hfirst

theorem look {view : Cursor -> α} {next : α -> Parser β}
    (hnext : (next (view c) c).Leads E c solid Q) :
    ((Parser.look view >>= next) c).Leads E c solid Q := hnext

theorem give {value : α} (h : P value) : ((pure value : Parser α) c).Leads E c false P :=
  ⟨Cursor.Reaches.refl c, h⟩

end Reply.Leads

namespace Proceeds

/-!
## One step
-/

theorem mono {P' : α -> Prop} {parser : Parser α} (h : Proceeds T E solid P parser)
    (himp : forall value, P value -> P' value) : Proceeds T E solid P' parser :=
  fun c hc => (h c hc).imp himp id

theorem lessSolid {parser : Parser α} (h : Proceeds T E solid P parser)
    (himp : solid' = true -> solid = true) : Proceeds T E solid' P parser :=
  fun c hc => (h c hc).imp (fun _ hvalue => hvalue) himp

theorem weaken {parser : Parser α} (h : Proceeds T E solid P parser) :
    Proceeds T E false P parser := h.lessSolid (by simp)

theorem seq {first : Parser α} {next : α -> Parser β} (hfirst : Proceeds T E solid P first)
    (hnext : forall value, P value -> Proceeds T E solid' Q (next value)) :
    Proceeds T E (solid || solid') Q (first >>= next) :=
  fun c hc => (hfirst c hc).bind (fun value d _ hway hvalue =>
    hnext value hvalue d (hc.after hway))

theorem bind {first : Parser α} {next : α -> Parser β} (hfirst : Proceeds T E solid P first)
    (hnext : forall value, P value -> Proceeds T E false Q (next value)) :
    Proceeds T E solid Q (first >>= next) :=
  (seq hfirst hnext).lessSolid (by simp +contextual)

theorem step {first : Parser α} {next : α -> Parser β} (hfirst : Proceeds T E solid P first)
    (hnext : forall value, P value -> Proceeds T E solid' Q (next value)) :
    Proceeds T E solid' Q (first >>= next) :=
  (seq hfirst hnext).lessSolid (by simp +contextual)

theorem look {view : Cursor -> α} {next : α -> Parser β}
    (hnext : forall value, Proceeds T E solid Q (next value)) :
    Proceeds T E solid Q (Parser.look view >>= next) := fun c hc => hnext (view c) c hc

theorem give {value : α} (h : P value) : Proceeds T E false P (pure value) :=
  fun c _ => ⟨Cursor.Reaches.refl c, h⟩

theorem build {start : Span} {make : Span -> α} (h : forall span, P (make span)) :
    Proceeds T E false P (Parser.spanFrom start >>= fun span => pure (make span)) :=
  look (fun span => give (h span))

theorem refuse (diagnostic : Cursor -> Diagnostic) :
    Proceeds T E solid P (fun cursor => .error (diagnostic cursor) cursor) :=
  fun c _ => Cursor.Reaches.refl c

theorem unexpected (expected : String) : Proceeds T E solid P (Parser.unexpected expected) :=
  refuse _

theorem mixedSeparators (construct : String) :
    Proceeds T E solid P (Parser.mixedSeparators construct) := refuse _

theorem tooDeep : Proceeds T E solid P Parser.tooDeep := refuse _

theorem map {f : α -> β} {parser : Parser α} (h : Proceeds T E solid P parser)
    (hf : forall value, P value -> Q (f value)) : Proceeds T E solid Q (f <$> parser) :=
  bind h (fun value hvalue => give (hf value hvalue))

theorem present {parser : Parser α} (h : Proceeds T E solid P parser) :
    Proceeds T E solid (fun found => forall value, found = some value -> P value)
      (some <$> parser) :=
  h.map (fun _ hvalue _ hfound => Option.some.inj hfound ▸ hvalue)

theorem optional {first : Parser (Option α)} {next : Option α -> Parser β} {possible : Bool}
    (hfirst : Proceeds T E solid (fun found => forall value, found = some value -> P value) first)
    (hnext : forall found, (forall value, found = some value -> P value) ->
      Proceeds T E solid' Q (next found)) :
    Proceeds T E solid' Q (if possible then first >>= next else pure none >>= next) := by
  split
  · exact step hfirst hnext
  · exact hnext none (by simp)

/-!
## Moving on
-/

theorem advance : Proceeds T E false (fun _ => True) Parser.advance :=
  fun _ hc => ⟨Cursor.Reaches.advance hc.final, trivial⟩

theorem skipLineBreaks : Proceeds T E false (fun _ => True) Parser.skipLineBreaks :=
  fun c _ => ⟨Cursor.Reaches.skipLineBreaks c, trivial⟩

theorem leadingComments :
    Proceeds T E false (fun comments => forall comment, comment ∈ comments ->
      T.Leaf .comment comment) Parser.leadingComments := by
  intro c hc
  refine ⟨Cursor.Reaches.passage c.skipTrivia_passage, fun comment hcomment => ?_⟩
  rcases List.mem_map.mp hcomment with ⟨t, ht, rfl⟩
  have hkind : t.kind = .comment := by simpa [Token.isComment] using (List.mem_filter.mp ht).2
  have hmem : t ∈ c.ahead := (List.takeWhile_prefix _).subset (List.mem_filter.mp ht).1
  exact T.leaf (hc.inside.subset hmem) ⟨hkind, rfl⟩

theorem expectAs {kind : Kind} (hkind : kind ≠ .endOfInput) (description : String) :
    Proceeds T E true (fun token => token ∈ T.text ∧ token.kind = kind)
      (Parser.expectAs kind description) := by
  intro c hc
  unfold Parser.expectAs expectOr
  split
  · rename_i hat
    have hcurrent : c.kind = kind := by simpa [Cursor.isAt] using hat
    have hne : c.kind ≠ .endOfInput := by rwa [hcurrent]
    exact ⟨Cursor.Reaches.advanceToken hc.final hne, (hc.mem_current hne).2, hcurrent⟩
  · exact Cursor.Reaches.refl c

theorem expectMark (mark : Mark) :
    Proceeds T E true (fun token => token ∈ T.text ∧ token.kind = .mark mark)
      (Parser.expect (.mark mark)) := expectAs (by simp) _

theorem expectReserved (word : ReservedWord) :
    Proceeds T E true (fun token => token ∈ T.text ∧ token.kind = .reserved word)
      (Parser.expect (.reserved word)) := expectAs (by simp) _

theorem leaf {kind : LeafKind} (hword : kind.isWord = true) (description : String) :
    Proceeds T E true (T.Leaf kind) (Grammar.leaf kind.tokenKind description) := by
  have hkind : kind.tokenKind ≠ .endOfInput := by cases kind <;> simp [LeafKind.tokenKind]
  apply bind (expectAs hkind description)
  rintro token ⟨htext, htoken⟩
  exact give (T.leaf htext (LeafKind.MadeOf.word hword htoken))

theorem text : Proceeds T E true (T.Leaf .text) Grammar.text := by
  intro c hc
  apply meets_bind
  unfold expect Parser.expectAs expectOr
  split
  · rename_i hat
    have hkind : c.kind = .text := by simpa [Cursor.isAt] using hat
    have hne : c.kind ≠ .endOfInput := by simp [hkind]
    rcases hc.mem_current hne with ⟨hahead, htext⟩
    simp only [Reply.Meets]
    cases hvalue : Grammar.unquoted? c.current.value with
    | some value =>
        refine ⟨Cursor.Reaches.advanceToken hc.final hne, T.leaf htext ⟨hkind, ?_⟩⟩
        simp [LeafKind.lexeme?, hvalue]
    | none =>
        apply E.unquoted hahead
        intro hquoted
        rcases hquoted hkind with ⟨value, hquote⟩
        rw [hquote, Account.unquoted?_quoted] at hvalue
        cases hvalue
  · exact Cursor.Reaches.refl c

/-!
## Nesting
-/

theorem nested {E' : Excuse} {parser : Parser α} (h : Proceeds T E solid P parser)
    (hexcuse : forall (c : Cursor) fault, c.depth < maxDepth ->
      E.For { c with depth := c.depth + 1 } fault -> E'.For c fault) :
    Proceeds T E' solid P (Parser.nested parser) := by
  intro c hc
  unfold Parser.nested
  split
  · rename_i hdepth
    have hreply := h _ hc.deeper
    cases hparser : parser { c with depth := c.depth + 1 } with
    | ok value d =>
        rw [hparser] at hreply
        rcases hreply with ⟨hway, hvalue⟩
        rcases hway.nested with ⟨hinner, hway⟩
        simp only [closeLevel, hinner]
        exact ⟨hway, hvalue⟩
    | error diagnostic d =>
        rw [hparser] at hreply
        rcases Cursor.Reaches.nested hreply with ⟨hinner, hway⟩
        simp only [closeLevel, hinner]
        exact hway
    | fault found =>
        rw [hparser] at hreply
        exact hexcuse c found hdepth hreply
  · exact Cursor.Reaches.refl c

/-!
## Repeating
-/

theorem repeatUpTo {more : Cursor -> Bool} {item : Parser α} (hitem : Proceeds T E true P item)
    (hend : forall c : Cursor, c.kind = .endOfInput -> more c = false) (bound : Nat) {c : Cursor}
    (hc : T.Fits c) (hbound : c.ahead.length <= bound) :
    (Parser.repeatUpTo more item bound c).Leads E c false
      (fun values => forall value, value ∈ values -> P value) := by
  induction bound generalizing c with
  | zero =>
      have hahead : c.ahead = [] := List.length_eq_zero_iff.mp (Nat.le_zero.mp hbound)
      have hmore : more c = false := hend c (Cursor.kind_of_ahead_nil hc.final hahead)
      simp only [Parser.repeatUpTo, hmore]
      exact Reply.Leads.give (by simp)
  | succ bound ih =>
      unfold Parser.repeatUpTo
      split
      · apply Reply.Leads.weaken
        apply Reply.Leads.bind (hitem c hc)
        intro value d _ hway hvalue
        have hshort := hway.length_lt
        apply Reply.Leads.bind (ih (hc.after hway) (by omega))
        intro values e _ _ hvalues
        exact Reply.Leads.give (List.forall_mem_cons.mpr ⟨hvalue, hvalues⟩)
      · exact Reply.Leads.give (by simp)

theorem repeatWhile {more : Cursor -> Bool} {item : Parser α} (hitem : Proceeds T E true P item)
    (hend : forall c : Cursor, c.kind = .endOfInput -> more c = false) :
    Proceeds T E false (fun values => forall value, value ∈ values -> P value)
      (Parser.repeatWhile more item) :=
  fun c hc => repeatUpTo hitem hend c.ahead.length hc (Nat.le_refl _)

/-!
## Lines and parentheses
-/

theorem wholeLine {terminator : Kind} {item : Parser α} (hitem : Proceeds T E solid P item) :
    Proceeds T E solid P (Parser.wholeLine terminator item) := by
  apply bind hitem
  intro value hvalue
  apply step skipLineBreaks
  intro skipped _
  apply look
  intro ended
  split
  · exact give hvalue
  · exact unexpected _

theorem lines {terminator : Kind} {item : Parser α} (hitem : Proceeds T E true P item) :
    Proceeds T E false (fun values => forall value, value ∈ values -> P value)
      (Parser.lines terminator item) := by
  apply step skipLineBreaks
  intro _ _
  apply repeatWhile (wholeLine hitem)
  intro c hend
  simp [Cursor.hasTokens, Cursor.isAt, hend]

theorem separated {construct : String} {separators : List Kind} {element : Parser α}
    (helement : Proceeds T E true P element) (bound : Nat) (separator : Option Kind)
    (multiline : Bool) {c : Cursor} (hc : T.Fits c) (hbound : c.ahead.length < bound) :
    (Parser.separated construct separators element bound separator multiline c).Leads E c false
      (fun found => forall value, value ∈ found.2 -> P value) := by
  induction bound generalizing separator multiline c with
  | zero => exact absurd hbound (Nat.not_lt_zero _)
  | succ bound ih =>
      apply Reply.Leads.look
      split
      · split
        · exact Cursor.Reaches.refl c
        · apply Reply.Leads.bind (advance c hc)
          intro _ d _ hread _
          apply Reply.Leads.bind (skipLineBreaks d (hc.after hread))
          intro skipped e _ hskip _
          have hway := hread.trans hskip
          apply Reply.Leads.look
          split
          · exact Reply.Leads.give (by simp)
          · apply Reply.Leads.weaken
            apply Reply.Leads.bind (helement _ (hc.after hway))
            intro next f _ hnext hvalue
            have hshort := (hway.trans hnext).length_lt
            apply Reply.Leads.bind (ih _ _ (hc.after (hway.trans hnext)) (by omega))
            intro found g _ _ hvalues
            exact Reply.Leads.give (List.forall_mem_cons.mpr ⟨hvalue, hvalues⟩)
      · split
        · exact Reply.Leads.give (by simp)
        · exact Cursor.Reaches.refl c

theorem enclosedRest {construct : String} {separators : List Kind} {element : Parser α}
    (helement : Proceeds T E true P element) {first : α} (hfirst : P first) (multiline : Bool) :
    Proceeds T E true (Makes.ofEnclosed P)
      (Parser.enclosedRest construct separators first multiline element) := by
  intro c hc
  apply Reply.Leads.look
  apply Reply.Leads.bind (separated helement _ none multiline hc (Nat.lt_succ_self _))
  rintro ⟨separator, rest⟩ d _ hway hrest
  apply bind (expectMark .closeParen) _ d (hc.after hway)
  intro _ _
  cases separator with
  | none => exact give hfirst
  | some separator => exact give (List.forall_mem_cons.mpr ⟨hfirst, hrest⟩)

theorem enclosed {construct : String} {separators : List Kind} {element : Parser α}
    (helement : Proceeds T E true P element) :
    Proceeds T E true (Makes.ofEnclosed P) (Parser.enclosed construct separators element) := by
  apply bind (expectMark .openParen)
  intro _ _
  apply look
  intro empty
  split
  · apply step advance
    intro _ _
    exact give trivial
  · apply step skipLineBreaks
    intro multiline _
    apply look
    intro kind
    split
    · apply step advance
      intro _ _
      apply step skipLineBreaks
      intro _ _
      apply step (expectMark .closeParen)
      intro _ _
      exact give (P := Makes.ofEnclosed P) (by simp [Makes.ofEnclosed])
    · apply step helement
      intro first hfirst
      exact (enclosedRest helement hfirst multiline).weaken

/-!
## Trials
-/

theorem speculate {parser : Parser α} (h : Proceeds T E true P parser) :
    Tries T E P (Parser.speculate parser) := by
  intro c hc
  have hreply := h c hc
  unfold Parser.speculate
  cases hparser : parser c with
  | ok value d =>
      rw [hparser] at hreply
      exact Or.inr ⟨value, rfl, hreply.2, hreply.1⟩
  | error diagnostic d =>
      rw [hparser] at hreply
      rcases hreply with ⟨read, noted, hpassage, _⟩
      exact Or.inl ⟨rfl, Cursor.restore_checkpoint hpassage⟩
  | fault found =>
      rw [hparser] at hreply
      exact hreply

theorem afterTrial {first : Parser (Option α)} {next : Option α -> Parser β}
    (hfirst : Tries T E P first) (hnone : Proceeds T E solid Q (next none))
    (hsome : forall value, P value -> Proceeds T E false Q (next (some value))) :
    Proceeds T E solid Q (first >>= next) := by
  intro c hc
  apply meets_bind
  apply Reply.Meets.imp (hfirst c hc)
  rintro found d (⟨rfl, rfl⟩ | ⟨value, rfl, hvalue, hway⟩)
  · exact hnone _ hc
  · exact (Reply.Leads.behind hway (hsome value hvalue d (hc.after hway))).imp
      (fun _ hresult => hresult) (by simp)

end Proceeds

namespace Tries

theorem look {view : Cursor -> β} {next : β -> Parser (Option α)}
    (hnext : forall value, Tries T E P (next value)) :
    Tries T E P (Parser.look view >>= next) := fun c hc => hnext (view c) c hc

theorem none : Tries T E P (pure none) := fun _ _ => Or.inl ⟨rfl, rfl⟩

theorem bind {first : Parser (Option α)} {next : Option α -> Parser (Option β)}
    (hfirst : Tries T E P first) (hnone : Tries T E Q (next .none))
    (hsome : forall value, P value -> Proceeds T E false
      (fun found => exists result, found = some result ∧ Q result) (next (some value))) :
    Tries T E Q (first >>= next) := by
  intro c hc
  apply meets_bind
  apply Reply.Meets.imp (hfirst c hc)
  rintro found d (⟨rfl, rfl⟩ | ⟨value, rfl, hvalue, hway⟩)
  · exact hnone _ hc
  · apply Reply.Meets.imp (Reply.Leads.behind hway (hsome value hvalue d (hc.after hway)))
    rintro _ e ⟨hwhole, result, rfl, hresult⟩
    exact Or.inr ⟨result, rfl, hresult, hwhole⟩

end Tries

end Linewise
