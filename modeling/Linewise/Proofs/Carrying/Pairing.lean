import Linewise.Proofs.Parallel.Correspondence

/-!
# Readings carried over

A text is changed a little, and the same rules read it again.  A pairing says which
cursors on the two texts belong together.  What has to be shown of it is small: how the
pairs treat single tokens and line breaks.  Every rule of the grammar then carries a
reading over, as long as the first reading notes no diagnostic: the second reading gives
the same value, spans included.

Other than in a correspondence, nothing is said about statements that are given up, the
two readings may stand at different depths, and at a place where a line may be broken
only the second text may go on with a line break.
-/

namespace Linewise

def Mark.joints : List Mark :=
  [.colon, .doubleColon, .arrow, .fatArrow, .caret, .star, .slash, .percent, .plus, .dash,
    .less, .lessEquals, .greater, .greaterEquals, .equals, .slashEquals, .dot]

/-- Whether a line may be broken behind a token of this kind. -/
def Kind.joins : Kind -> Bool
  | .mark found => Mark.joints.contains found
  | _ => false

/-- Where a reading stands: whether a line may be broken here, the brackets that are open,
and the number of levels that are. -/
structure Standing where
  joined : Bool
  stack : List Bracket
  depth : Nat

def Cursor.AtClose (c : Cursor) : Prop := c.kind = .endOfInput ∨ c.kind = .mark .closeParen

/-- A way to pair the cursors of two readings. -/
structure Pairing where
  Twin : Standing -> Cursor -> Cursor -> Prop
  /-- The two texts end alike. -/
  Whole : Prop
  /-- The number of levels around the second reading. -/
  lift : Nat
  fits : forall {σ c d}, Twin σ c d -> plainRecovery.Fits c ∧ plainRecovery.Fits d
  depth : forall {σ c d}, Twin σ c d -> c.depth = σ.depth ∧ d.depth = σ.depth + lift
  deepen : forall {j S k c d} (depth : Nat), Twin ⟨j, S, k⟩ c d ->
    Twin ⟨j, S, depth⟩ { c with depth := depth } { d with depth := depth + lift }
  previous : forall {σ c d}, Twin σ c d -> d.previous = c.previous
  current : forall {S k c d}, Twin ⟨false, S, k⟩ c d -> d.current = c.current ∨
    (¬ Whole ∧ S = [] ∧ c.AtClose ∧ d.AtClose)
  arrow : forall {S k c d}, Twin ⟨false, S, k⟩ c d ->
    Grammar.mayBeFunction d = Grammar.mayBeFunction c
  read : forall {S S' k c d}, Twin ⟨false, S, k⟩ c d -> d.current = c.current ->
    c.kind ≠ .endOfInput -> Bracket.step S c.kind = some S' ->
    Twin ⟨c.kind.joins, S', k⟩ c.advance d.advance
  skip : forall {j S k c d}, Twin ⟨j, S, k⟩ c d ->
    Twin ⟨false, S, k⟩ c.skipLineBreaks d.skipLineBreaks
  trivia : forall {S k c d}, Twin ⟨false, S, k⟩ c d ->
    d.leadingComments = c.leadingComments ∧ Twin ⟨false, S, k⟩ c.skipTrivia d.skipTrivia

def Reply.Recalls {α : Type} (errors : List Diagnostic) : Reply α -> Prop
  | .ok _ d => errors <+: d.errors
  | .error _ d => errors <+: d.errors
  | .fault _ => True

def Parser.Grows {α : Type} (parser : Parser α) : Prop :=
  forall c, (parser c).Recalls c.errors

namespace Pairing

variable {α β : Type} {P : Pairing} {sharp j : Bool} {S T : List Bracket} {k : Nat}
  {σ : Standing} {pre : Cursor -> Prop}

/-- The second reply follows from the first.  If the first one gives a value, and notes
nothing, the second one gives the same.  A sharp reading never notes anything, and fails
if the first one does. -/
def Replies (P : Pairing) (sharp : Bool) (errors : List Diagnostic) (τ : α -> Standing) :
    Reply α -> Reply α -> Prop
  | .ok value c, reply => sharp = true ∨ c.errors = errors ->
      exists d, reply = .ok value d ∧ P.Twin (τ value) c d
  | .error _ _, reply => sharp = true -> forall value d, reply ≠ .ok value d
  | .fault _, _ => True

/-- From every pair of cursors that stand at `σ`, of which the first is as in `pre`, the
reply of the second reading follows from that of the first. -/
structure Carries (P : Pairing) (sharp : Bool) (σ : Standing) (pre : Cursor -> Prop)
    (parser : Parser α) (τ : α -> Standing) : Prop where
  grows : parser.Grows
  replies : forall {c d}, P.Twin σ c d -> pre c ->
    P.Replies sharp c.errors τ (parser c) (parser d)

/-!
## Pairs of cursors
-/

theorem same_of_sheltered {c d : Cursor} (h : P.Twin ⟨false, S, k⟩ c d)
    (hstack : P.Whole ∨ S ≠ []) : d.current = c.current := by
  rcases P.current h with hsame | ⟨hwhole, hnone, _⟩
  · exact hsame
  · rcases hstack with hall | hne
    · exact absurd hall hwhole
    · exact absurd hnone hne

theorem same_of_kind {c d : Cursor} (h : P.Twin ⟨false, S, k⟩ c d) (hclose : ¬ c.AtClose) :
    d.current = c.current := by
  rcases P.current h with hsame | ⟨_, _, hc, _⟩
  · exact hsame
  · exact absurd hc hclose

theorem not_atClose {c : Cursor} {kind : Kind} (h : c.kind = kind) (hend : kind ≠ .endOfInput)
    (hclose : kind ≠ .mark .closeParen) : ¬ c.AtClose := by
  rintro (hc | hc)
  · exact hend (h.symm.trans hc)
  · exact hclose (h.symm.trans hc)

structure Steady (test : Cursor -> Bool) : Prop where
  same : forall {c d : Cursor}, d.current = c.current -> test d = test c
  close : forall {c : Cursor}, c.AtClose -> test c = false

theorem Steady.eq {test : Cursor -> Bool} (h : Steady test) {c d : Cursor}
    (htwin : P.Twin ⟨false, S, k⟩ c d) : test d = test c := by
  rcases P.current htwin with hsame | ⟨_, _, hc, hd⟩
  · exact h.same hsame
  · rw [h.close hc, h.close hd]

theorem steady_isAt {kind : Kind} (hend : kind ≠ .endOfInput)
    (hclose : kind ≠ .mark .closeParen) : Steady (Cursor.isAt kind) where
  same := by
    intro c d hsame
    simp [Cursor.isAt, Cursor.kind, hsame]
  close := by
    rintro c (hc | hc)
    · simp [Cursor.isAt, hc, Ne.symm hend]
    · simp [Cursor.isAt, hc, Ne.symm hclose]

theorem steady_starts {starts : List Kind} (hend : Kind.endOfInput ∉ starts)
    (hclose : Kind.mark .closeParen ∉ starts) :
    Steady (fun c => starts.contains c.current.kind && !c.current.isOperatorWord) where
  same := by
    intro c d hsame
    simp [hsame]
  close := by
    rintro c (hc | hc)
    · have hkind : c.current.kind = .endOfInput := hc
      simp [hkind, hend]
    · have hkind : c.current.kind = .mark .closeParen := hc
      simp [hkind, hclose]

theorem steady_startsType : Steady (fun c => c.current.startsType) :=
  steady_starts (by decide) (by decide)

theorem steady_startsPattern : Steady (fun c => c.current.startsPattern) :=
  steady_starts (by decide) (by decide)

theorem steady_startsExpression : Steady (fun c => c.current.startsExpression) :=
  steady_starts (by decide) (by decide)

/-!
## Sequences
-/

theorem Carries.given {parser : Parser α} {τ : α -> Standing} {pre' : Cursor -> Prop}
    (hpre : forall c, pre c -> pre' c) (h : P.Carries sharp σ pre' parser τ) :
    P.Carries sharp σ pre parser τ where
  grows := h.grows
  replies htwin hc := h.replies htwin (hpre _ hc)

theorem Grows.bind {first : Parser α} {next : α -> Parser β} (hfirst : first.Grows)
    (hnext : forall value, (next value).Grows) : (first >>= next).Grows := by
  intro c
  have hreply := hfirst c
  rw [Parser.bind_apply]
  generalize first c = reply at hreply
  cases reply with
  | fault found => trivial
  | error g d => exact hreply
  | ok value d =>
      have hreply : c.errors <+: d.errors := hreply
      have hreply' := hnext value d
      dsimp only
      generalize next value d = reply' at hreply'
      cases reply' with
      | fault found => trivial
      | error g e => exact hreply.trans hreply'
      | ok result e => exact hreply.trans hreply'

theorem errors_eq_of_grows {first second third : List Diagnostic} (h : first <+: second)
    (h' : second <+: third) (hsame : third = first) : second = first := by
  subst hsame
  exact (h'.eq_of_length_le h.length_le)

theorem Carries.seq {first : Parser α} {next : α -> Parser β} {μ : α -> Standing}
    {τ : β -> Standing} (post : α -> Cursor -> Prop) (hfirst : P.Carries sharp σ pre first μ)
    (hpost : forall {c d value c'}, P.Twin σ c d -> pre c -> first c = .ok value c' ->
      post value c')
    (hnext : forall value, P.Carries sharp (μ value) (post value) (next value) τ) :
    P.Carries sharp σ pre (first >>= next) τ where
  grows := Grows.bind hfirst.grows (fun value => (hnext value).grows)
  replies := by
    intro c d htwin hpre
    have hreply := hfirst.replies htwin hpre
    have hgrows := hfirst.grows c
    have hknown : forall value c', first c = .ok value c' -> post value c' :=
      fun _ _ hfound => hpost htwin hpre hfound
    rw [Parser.bind_apply, Parser.bind_apply]
    generalize first c = reply at hreply hgrows hknown
    cases reply with
    | fault found => trivial
    | error g c' =>
        intro hsharp value e
        have hnever := hreply hsharp
        cases hd : first d with
        | ok found d' => exact absurd hd (hnever found d')
        | error g' d' => simp
        | fault found => simp
    | ok value c' =>
        have hgrows : c.errors <+: c'.errors := hgrows
        dsimp only
        by_cases hclean : sharp = true ∨ c'.errors = c.errors
        · rcases hreply hclean with ⟨d', hd, htwin'⟩
          rw [hd]
          have hreply' := (hnext value).replies htwin' (hknown value c' rfl)
          dsimp only
          rcases hclean with hsharp | hclean
          · subst hsharp
            generalize next value c' = reply' at hreply'
            cases reply' with
            | fault found => trivial
            | error g c'' => exact hreply'
            | ok result c'' => exact fun _ => hreply' (Or.inl rfl)
          · rw [← hclean]
            exact hreply'
        · -- something was noted, so nothing is asked of the second reading
          have hlax : sharp ≠ true := fun hsharp => hclean (Or.inl hsharp)
          have hgrows' := (hnext value).grows c'
          generalize next value c' = reply' at hgrows'
          cases reply' with
          | fault found => trivial
          | error g c'' => exact fun hsharp => absurd hsharp hlax
          | ok result c'' =>
              rintro (hsharp | hsame)
              · exact absurd hsharp hlax
              · exact absurd (Or.inr (errors_eq_of_grows hgrows hgrows' hsame)) hclean

theorem Carries.bind {first : Parser α} {next : α -> Parser β} {μ : α -> Standing}
    {τ : β -> Standing} (hfirst : P.Carries sharp σ pre first μ)
    (hnext : forall value, P.Carries sharp (μ value) (fun _ => True) (next value) τ) :
    P.Carries sharp σ pre (first >>= next) τ :=
  Carries.seq (fun _ _ => True) hfirst (fun _ _ _ => trivial) hnext

theorem Carries.give {value : α} : P.Carries sharp σ pre (pure value) (fun _ => σ) where
  grows _ := List.prefix_refl _
  replies htwin _ _ := ⟨_, rfl, htwin⟩

theorem Carries.map {parser : Parser α} {f : α -> β} {τ : Standing}
    (h : P.Carries sharp σ pre parser (fun _ => τ)) :
    P.Carries sharp σ pre (f <$> parser) (fun _ => τ) :=
  Carries.bind h (fun _ => Carries.give)

/-!
## Looking ahead
-/

theorem Carries.look {view : Cursor -> β} {next : β -> Parser α} {τ : α -> Standing}
    (hview : forall {c d}, P.Twin σ c d -> pre c -> view d = view c)
    (h : forall seen, P.Carries sharp σ (fun c => pre c ∧ view c = seen) (next seen) τ) :
    P.Carries sharp σ pre (Parser.look view >>= next) τ where
  grows c := (h (view c)).grows c
  replies := by
    intro c d htwin hpre
    show P.Replies sharp c.errors τ (next (view c) c) (next (view d) d)
    rw [hview htwin hpre]
    exact (h (view c)).replies htwin ⟨hpre, rfl⟩

theorem Carries.test {test : Cursor -> Bool} {next : Bool -> Parser α} {τ : α -> Standing}
    (htest : Steady test)
    (h : forall seen, P.Carries sharp ⟨false, S, k⟩ (fun c => pre c ∧ test c = seen) (next seen)
      τ) :
    P.Carries sharp ⟨false, S, k⟩ pre (Parser.look test >>= next) τ :=
  Carries.look (fun htwin _ => htest.eq htwin) h

theorem Carries.isAt {kind : Kind} {next : Bool -> Parser α} {τ : α -> Standing}
    (hend : kind ≠ .endOfInput) (hclose : kind ≠ .mark .closeParen)
    (h : forall seen, P.Carries sharp ⟨false, S, k⟩ (fun c => pre c ∧ c.isAt kind = seen)
      (next seen) τ) :
    P.Carries sharp ⟨false, S, k⟩ pre (Parser.isAt kind >>= next) τ :=
  Carries.test (steady_isAt hend hclose) h

theorem Carries.view (view : Token -> β) {next : β -> Parser α} {τ : α -> Standing}
    (hstack : P.Whole ∨ S ≠ [])
    (h : forall seen, P.Carries sharp ⟨false, S, k⟩ (fun c => pre c ∧ view c.current = seen)
      (next seen) τ) :
    P.Carries sharp ⟨false, S, k⟩ pre (Parser.look (fun c => view c.current) >>= next) τ :=
  Carries.look (fun htwin _ => by rw [same_of_sheltered htwin hstack]) h

theorem Carries.spanFrom {start : Span} {next : Span -> Parser α} {τ : α -> Standing}
    (h : forall span, P.Carries sharp σ (fun _ => True) (next span) τ) :
    P.Carries sharp σ pre (Parser.spanFrom start >>= next) τ :=
  Carries.look (fun htwin _ => by rw [Cursor.spanFrom, Cursor.spanFrom, P.previous htwin])
    (fun seen => (h seen).given (fun _ _ => trivial))

/-!
## The end of a text
-/

def Balks (parser : Parser α) : Prop :=
  forall c, c.AtClose -> forall value d, parser c ≠ .ok value d

theorem Balks.bind {first : Parser α} {next : α -> Parser β} (h : Balks first) :
    Balks (first >>= next) := by
  intro c hc result e hok
  rcases Parser.bind_eq_ok.mp hok with ⟨value, d, hfirst, _⟩
  exact h c hc value d hfirst

theorem Balks.look {view : Cursor -> β} {next : β -> Parser α}
    (h : forall seen, Balks (next seen)) : Balks (Parser.look view >>= next) :=
  fun c hc => h (view c) c hc

theorem Balks.kind {next : Kind -> Parser α} (hend : Balks (next .endOfInput))
    (hclose : Balks (next (.mark .closeParen))) : Balks (Parser.currentKind >>= next) := by
  intro c hc value d
  show next c.kind c ≠ .ok value d
  rcases hc with hkind | hkind
  · rw [hkind]
    exact hend c (Or.inl hkind) value d
  · rw [hkind]
    exact hclose c (Or.inr hkind) value d

theorem balks_unexpected (expected : String) :
    Balks (Parser.unexpected expected : Parser α) := by
  intro c _ value d hok
  cases hok

theorem balks_tooDeep : Balks (Parser.tooDeep : Parser α) := by
  intro c _ value d hok
  cases hok

theorem Balks.nested {parser : Parser α} (h : Balks parser) : Balks (Parser.nested parser) := by
  intro c hc value d hok
  rcases Parser.nested_eq_ok hok with ⟨e, _, hparser, _⟩
  exact h { c with depth := c.depth + 1 } hc value e hparser

theorem Replies.balked {reply reply' : Reply α} {errors : List Diagnostic} {τ : α -> Standing}
    (h : forall value d, reply ≠ .ok value d) (h' : forall value d, reply' ≠ .ok value d) :
    P.Replies sharp errors τ reply reply' := by
  cases reply with
  | ok value c => exact absurd rfl (h value c)
  | error g c => exact fun _ => h'
  | fault found => trivial

theorem Carries.lookOr {view : Cursor -> β} {next : β -> Parser α} {τ : α -> Standing}
    (hview : forall {c d : Cursor}, d.current = c.current -> view d = view c)
    (hbalks : Balks (Parser.look view >>= next))
    (h : forall seen, P.Carries sharp ⟨false, S, k⟩ (fun c => pre c ∧ view c = seen) (next seen)
      τ) :
    P.Carries sharp ⟨false, S, k⟩ pre (Parser.look view >>= next) τ where
  grows c := (h (view c)).grows c
  replies := by
    intro c d htwin hpre
    rcases P.current htwin with hsame | ⟨_, _, hc, hd⟩
    · show P.Replies sharp c.errors τ (next (view c) c) (next (view d) d)
      rw [hview hsame]
      exact (h (view c)).replies htwin ⟨hpre, rfl⟩
    · exact Replies.balked (hbalks c hc) (hbalks d hd)

theorem Carries.start {next : Span -> Parser α} {τ : α -> Standing}
    (hbalks : forall span, Balks (next span))
    (h : forall span, P.Carries sharp ⟨false, S, k⟩ pre (next span) τ) :
    P.Carries sharp ⟨false, S, k⟩ pre (Parser.currentSpan >>= next) τ :=
  Carries.lookOr (fun hsame => by rw [hsame]) (Balks.look hbalks)
    (fun seen => (h seen).given (fun _ hc => hc.1))

theorem Carries.kind {next : Kind -> Parser α} {τ : α -> Standing}
    (hbalks : Balks (Parser.currentKind >>= next))
    (h : forall kind, P.Carries sharp ⟨false, S, k⟩ (fun c => pre c ∧ c.kind = kind) (next kind)
      τ) :
    P.Carries sharp ⟨false, S, k⟩ pre (Parser.currentKind >>= next) τ :=
  Carries.lookOr (fun hsame => by rw [Cursor.kind, Cursor.kind, hsame]) hbalks h

theorem Carries.startAt {next : Span -> Parser α} {τ : α -> Standing}
    (hclose : forall c, pre c -> ¬ c.AtClose)
    (h : forall span, P.Carries sharp ⟨false, S, k⟩ pre (next span) τ) :
    P.Carries sharp ⟨false, S, k⟩ pre (Parser.currentSpan >>= next) τ :=
  Carries.look (fun {c _} htwin hpre => by rw [same_of_kind htwin (hclose c hpre)])
    (fun seen => (h seen).given (fun _ hc => hc.1))

theorem Carries.startInside {next : Span -> Parser α} {τ : α -> Standing}
    (hstack : P.Whole ∨ S ≠ [])
    (h : forall span, P.Carries sharp ⟨false, S, k⟩ pre (next span) τ) :
    P.Carries sharp ⟨false, S, k⟩ pre (Parser.currentSpan >>= next) τ :=
  Carries.view (fun token => token.span) hstack
    (fun seen => (h seen).given (fun _ hc => hc.1))

theorem Carries.kindInside {next : Kind -> Parser α} {τ : α -> Standing}
    (hstack : P.Whole ∨ S ≠ [])
    (h : forall kind, P.Carries sharp ⟨false, S, k⟩ (fun c => pre c ∧ c.kind = kind) (next kind)
      τ) :
    P.Carries sharp ⟨false, S, k⟩ pre (Parser.currentKind >>= next) τ :=
  Carries.view (fun token => token.kind) hstack h

/-!
## Stopping
-/

theorem Carries.stop {parser : Parser α} {τ : α -> Standing}
    (h : forall c, exists g, parser c = .error g c) : P.Carries sharp σ pre parser τ where
  grows := by
    intro c
    rcases h c with ⟨g, hg⟩
    rw [hg]
    exact List.prefix_refl _
  replies := by
    intro c d _ _
    rcases h c with ⟨g, hg⟩
    rcases h d with ⟨g', hg'⟩
    rw [hg, hg']
    intro _ value e hok
    cases hok

theorem Carries.unexpected {τ : α -> Standing} (expected : String) :
    P.Carries sharp σ pre (Parser.unexpected expected : Parser α) τ :=
  Carries.stop (fun _ => ⟨_, rfl⟩)

theorem Carries.tooDeep {τ : α -> Standing} :
    P.Carries sharp σ pre (Parser.tooDeep : Parser α) τ :=
  Carries.stop (fun _ => ⟨_, rfl⟩)

theorem Carries.faulty {τ : α -> Standing} (found : Fault) :
    P.Carries sharp σ pre (Parser.faulty found : Parser α) τ where
  grows _ := trivial
  replies _ _ := trivial

end Pairing
end Linewise
