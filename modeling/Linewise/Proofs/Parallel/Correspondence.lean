import Linewise.Proofs.Parallel.Relabelling
import Linewise.Proofs.Skipping

/-!
# Two readings side by side

Two cursors on similar tokens are read by the same rules.  A correspondence says
which pairs of cursors belong together, and what has to be shown of it is small:
how the pairs treat single tokens, line breaks and statements that are given up.
Every rule of the grammar then leads from pairs to pairs, and the two values it
gives differ in their spans only.

The two texts may differ behind the place where one of them ends.  There the one
cursor may stand at the end of the input and the other at a line break, so the
rules must not be led across line breaks.  A frame says as much of the place in a
construct as is needed to know that they are not.
-/

namespace Linewise

/-!
## Frames
-/

/-- Where reading stands in a construct. -/
inductive Phase where
  /-- Nothing is known. -/
  | any
  /-- An operand is to come. -/
  | expecting
  /-- An operand is to come on this line or on a later one. -/
  | joined
  /-- Behind an operator word that joins two operands. -/
  | worded
  /-- Behind an operand. -/
  | settled
deriving DecidableEq

namespace Phase

/-- The phase behind a token of a kind, operator words apart. -/
def ofKind : Kind -> Phase
  | .capitalName => .settled
  | .lowercaseName => .settled
  | .number => .settled
  | .text => .settled
  | .mark .underscore => .settled
  | .mark .closeParen => .settled
  | .mark .closeCurly => .settled
  | .mark .semicolon => .expecting
  | .mark .comma => .expecting
  | .mark _ => .joined
  | .reserved .typeWord => .settled
  | .reserved .traitWord => .settled
  | .reserved _ => .expecting
  | _ => .any

def behindWord : Phase -> Phase
  | .any => .any
  | .settled => .worded
  | _ => .settled

def behind (phase : Phase) (token : Token) : Phase :=
  if token.isOperatorWord then phase.behindWord else ofKind token.kind

/-- What is known in one phase is known in the other. -/
def Refines (p q : Phase) : Prop :=
  p = q ∨ q = .any ∨ (q = .expecting ∧ (p = .joined ∨ p = .worded))

theorem Refines.refl (p : Phase) : p.Refines p := Or.inl rfl

theorem behind_of_kind {token : Token} {kind : Kind} (h : token.kind = kind)
    (hname : kind ≠ .lowercaseName) (p : Phase) : p.behind token = ofKind kind := by
  have hword : token.isOperatorWord = false := by simp [Token.isOperatorWord, h, hname]
  simp [behind, hword, h]

def Begins (p : Phase) (c : Cursor) : Prop :=
  p = .expecting ∨ p = .joined ∨ c.current.isOperatorWord = false

theorem Begins.settled {p : Phase} {c : Cursor} (h : p.Begins c) (hkind : c.kind = .lowercaseName) :
    p.behind c.current = .settled := by
  have hcurrent : c.current.kind = .lowercaseName := hkind
  unfold behind
  split
  · rename_i hword
    rcases h with rfl | rfl | hnone
    · rfl
    · rfl
    · rw [hnone] at hword
      cases hword
  · rw [hcurrent]
    rfl

end Phase

/-- The place in a construct: the phase, the brackets that are open, and whether no
diagnostic was noted since the statement began. -/
structure Frame where
  phase : Phase
  stack : List Bracket
  clean : Bool

/-- What is known in one frame is known in the other.  Inside of brackets the phase
says nothing. -/
structure Frame.Refines (σ τ : Frame) : Prop where
  stack : σ.stack = τ.stack
  phase : τ.stack ≠ [] ∨ σ.phase.Refines τ.phase
  clean : τ.clean = true -> σ.clean = true

class Bracket.Under (outer inner : List Bracket) : Prop where
  suffix : outer <:+ inner

instance Bracket.under_refl (stack : List Bracket) : Bracket.Under stack stack :=
  ⟨List.suffix_refl stack⟩

instance Bracket.under_cons (outer inner : List Bracket) (bracket : Bracket)
    [h : Bracket.Under outer inner] : Bracket.Under outer (bracket :: inner) :=
  ⟨h.suffix.trans (List.suffix_cons bracket inner)⟩

/-!
## Correspondences
-/

/-- A cursor at the end of the input or at the end of a line. -/
def Cursor.AtMargin (c : Cursor) : Prop := c.kind = .endOfInput ∨ c.kind = .lineBreak

/-- The account that asks for nothing but quoted texts. -/
def plainRecovery : Recovery where
  Admits := Token.Quoted
  Ends token := token.kind = .endOfInput
  Holds _ _ _ _ := True
  Lists _ _ _ _ _ := True
  quoted h := h
  ends h := h
  nil _ := trivial
  append _ _ := trivial
  silent _ _ := trivial
  word _ _ _ := trivial
  group _ _ := trivial
  none := trivial
  trivia _ _ := trivial
  told _ _ _ _ _ := trivial
  failed _ _ _ _ _ _ _ _ := trivial
  next _ _ _ _ _ := trivial
  close _ _ _ _ _ := trivial
  unlist _ _ := trivial

/-- Behind the comments and line breaks in front the two cursors belong together, and
so do the comments. -/
structure Cursor.Clears (ρ : Relabelling) (Twin : Cursor -> Cursor -> Prop) (c d : Cursor) :
    Prop where
  comments : d.leadingComments = ρ.comments c.leadingComments
  twin : Twin c.skipTrivia d.skipTrivia

/-- Where the two texts end alike, the first reading never fails alone. -/
theorem never_lossy : False -> ¬ True := False.elim

/-- A way to pair the cursors of two readings. -/
structure Correspondence where
  /-- How the spans of the second reading follow from those of the first. -/
  relabelling : Relabelling
  Twin : Frame -> Cursor -> Cursor -> Prop
  /-- How the diagnostics of the two readings belong together. -/
  Said : Diagnostic -> Diagnostic -> Prop
  /-- The two texts end alike. -/
  Whole : Prop
  /-- The first reading may fail where the second one reads on. -/
  Lossy : Prop
  lossy : Lossy -> ¬ Whole
  fits : forall {σ c d}, Twin σ c d ->
    plainRecovery.Fits c ∧ plainRecovery.Fits d ∧ d.depth = c.depth
  deepen : forall {σ c d} (depth : Nat), Twin σ c d ->
    Twin σ { c with depth := depth } { d with depth := depth }
  refine : forall {σ τ c d}, σ.Refines τ -> Twin σ c d -> Twin τ c d
  current : forall {σ c d}, Twin σ c d ->
    d.current = c.current.relabel relabelling ∨
      (σ.stack = [] ∧ σ.phase ≠ .joined ∧ c.AtMargin ∧ d.AtMargin ∧ ¬ Whole)
  said : forall {σ c d} {g : Diagnostic}, Twin σ c d -> g.span = c.current.span ->
    Said g (g.relabel relabelling)
  saidAll : ¬ Whole -> forall g h, Said g h
  previous : forall {σ c d}, Twin σ c d -> σ.phase = .settled ∨ σ.phase = .joined ->
    d.previous = c.previous.relabel relabelling
  arrow : forall {σ c d}, Twin σ c d -> Grammar.mayBeFunction d = Grammar.mayBeFunction c
  read : forall {p S S' k c d}, Twin ⟨p, S, k⟩ c d ->
    d.current = c.current.relabel relabelling -> c.kind ≠ .endOfInput -> c.kind ≠ .lineBreak ->
    Bracket.step S c.kind = some S' -> Twin ⟨p.behind c.current, S', k⟩ c.advance d.advance
  skip : forall {S k c d}, Twin ⟨.joined, S, k⟩ c d ->
    Twin ⟨.joined, S, k⟩ c.skipLineBreaks d.skipLineBreaks
  stray : forall {S k c d}, Twin ⟨.worded, S, k⟩ c d ->
    Twin ⟨.expecting, S, k⟩ c.skipLineBreaks d.skipLineBreaks ∨
      (Lossy ∧ k = false ∧ S = [] ∧ c.skipLineBreaks.kind = .endOfInput)
  trivia : forall {p S k c d}, Whole ∨ S ≠ [] -> Twin ⟨p, S, k⟩ c d ->
    Cursor.Clears relabelling (Twin ⟨.expecting, S, k⟩) c d
  newline : forall {p S k c d}, Whole ∨ S ≠ [] -> Twin ⟨p, S, k⟩ c d -> c.kind = .lineBreak ->
    Cursor.Clears relabelling (Twin ⟨.expecting, S, k⟩) c.advance d.advance
  recover : forall {terminator p S k σ c d c' d' read noted read' noted' g h},
    Whole ∨ S ≠ [] -> Bracket.Surrounds terminator S -> Twin ⟨p, S, k⟩ c d ->
    c.Begins terminator -> Twin σ c' d' -> S <:+ σ.stack ->
    c.Passage read noted c' -> d.Passage read' noted' d' -> Said g h ->
    Twin ⟨.any, S, false⟩ ((c'.record g).skipStatement terminator)
        ((d'.record h).skipStatement terminator) ∧
      ((d'.record h).skipStatement terminator).previous =
        ((c'.record g).skipStatement terminator).previous.relabel relabelling

namespace Correspondence

variable {α β : Type} {K : Correspondence} {lax : Bool} {S T : List Bracket} {k : Bool}
  {p q : Phase} {σ : Frame} {pre : Cursor -> Prop}

/-- The replies of the two readings belong together.  Both give values, in cursors
that stand at the given frame; or both fail, with no bracket of `S` closed; or both
meet the same fault; or, if this is allowed, it is only known that the first one
gives no value. -/
inductive Replies (K : Correspondence) (lax : Bool) (S : List Bracket) (τ : α -> Frame)
    (move : α -> α) : Reply α -> Reply α -> Prop where
  | ok {value : α} {c d : Cursor} (twin : K.Twin (τ value) c d) :
      Replies K lax S τ move (.ok value c) (.ok (move value) d)
  | error {g h : Diagnostic} {σ : Frame} {c d : Cursor} (said : K.Said g h)
      (twin : K.Twin σ c d) (under : S <:+ σ.stack) :
      Replies K lax S τ move (.error g c) (.error h d)
  | fault (found : Fault) : Replies K lax S τ move (.fault found) (.fault found)
  | lost {reply reply' : Reply α} (hlax : lax = true) (hlossy : K.Lossy) (hstack : S = [])
      (hfails : forall value c, reply ≠ .ok value c) : Replies K lax S τ move reply reply'

theorem Replies.gave {τ : α -> Frame} {move : α -> α} {value value' : α} {c d : Cursor}
    (hvalue : value' = move value) (twin : K.Twin (τ value) c d) :
    K.Replies lax S τ move (.ok value c) (.ok value' d) := by
  rw [hvalue]
  exact .ok twin

theorem Replies.exists_ok {τ : α -> Frame} {move : α -> α} {value : α} {c : Cursor}
    {reply : Reply α} (h : K.Replies false S τ move (.ok value c) reply) :
    exists d, reply = .ok (move value) d ∧ K.Twin (τ value) c d := by
  cases h with
  | ok twin => exact ⟨_, rfl, twin⟩
  | lost hlax => cases hlax

/-- From every pair of cursors at the frame `σ`, of which the first is as in `pre`,
the two parsers give replies that belong together. -/
def Tracks (K : Correspondence) (lax : Bool) (S : List Bracket) (σ : Frame)
    (pre : Cursor -> Prop) (first second : Parser α) (τ : α -> Frame) (move : α -> α) : Prop :=
  forall c d, K.Twin σ c d -> pre c -> K.Replies lax S τ move (first c) (second d)

/-!
## Pairs of cursors
-/

def Alike (K : Correspondence) (c d : Cursor) : Prop :=
  d.current = c.current.relabel K.relabelling ∨ (c.AtMargin ∧ d.AtMargin)

theorem alike {c d : Cursor} (h : K.Twin σ c d) : K.Alike c d := by
  rcases K.current h with hsame | ⟨_, _, hc, hd, _⟩
  · exact Or.inl hsame
  · exact Or.inr ⟨hc, hd⟩

theorem same_of_kind {c d : Cursor} (h : K.Twin σ c d) (hmargin : ¬ c.AtMargin) :
    d.current = c.current.relabel K.relabelling := by
  rcases K.current h with hsame | ⟨_, _, hc, _⟩
  · exact hsame
  · exact absurd hc hmargin

theorem same_of_sheltered {c d : Cursor} (h : K.Twin σ c d) (hstack : K.Whole ∨ σ.stack ≠ []) :
    d.current = c.current.relabel K.relabelling := by
  rcases K.current h with hsame | ⟨hnone, _, _, _, hwhole⟩
  · exact hsame
  · rcases hstack with hall | hne
    · exact absurd hall hwhole
    · exact absurd hnone hne

theorem not_lossy_of_sheltered (hstack : K.Whole ∨ S ≠ []) (hlossy : K.Lossy) : S ≠ [] := by
  rcases hstack with hwhole | hne
  · exact absurd hwhole (K.lossy hlossy)
  · exact hne

theorem kind_eq {c d : Cursor} (h : d.current = c.current.relabel K.relabelling) :
    d.kind = c.kind := by
  rw [Cursor.kind, h]
  rfl

theorem not_atMargin {c : Cursor} {kind : Kind} (h : c.kind = kind) (hend : kind ≠ .endOfInput)
    (hbreak : kind ≠ .lineBreak) : ¬ c.AtMargin := by
  rintro (hc | hc)
  · exact hend (h.symm.trans hc)
  · exact hbreak (h.symm.trans hc)

structure Steady (K : Correspondence) (test : Cursor -> Bool) : Prop where
  same : forall {c d : Cursor}, d.current = c.current.relabel K.relabelling -> test d = test c
  margin : forall {c : Cursor}, c.AtMargin -> test c = false

theorem Steady.eq {test : Cursor -> Bool} (h : K.Steady test) {c d : Cursor}
    (halike : K.Alike c d) : test d = test c := by
  rcases halike with hsame | ⟨hc, hd⟩
  · exact h.same hsame
  · rw [h.margin hc, h.margin hd]

theorem steady_isAt {kind : Kind} (hend : kind ≠ .endOfInput) (hbreak : kind ≠ .lineBreak) :
    K.Steady (Cursor.isAt kind) where
  same := by
    intro c d hsame
    simp [Cursor.isAt, kind_eq hsame]
  margin := by
    intro c hc
    rcases hc with hc | hc
    · simp [Cursor.isAt, hc, Ne.symm hend]
    · simp [Cursor.isAt, hc, Ne.symm hbreak]

theorem steady_starts {starts : List Kind} (hend : Kind.endOfInput ∉ starts)
    (hbreak : Kind.lineBreak ∉ starts) :
    K.Steady (fun c => starts.contains c.current.kind && !c.current.isOperatorWord) where
  same := by
    intro c d hsame
    simp [hsame]
  margin := by
    intro c hc
    rcases hc with hc | hc
    · have hkind : c.current.kind = .endOfInput := hc
      simp [hkind, hend]
    · have hkind : c.current.kind = .lineBreak := hc
      simp [hkind, hbreak]

theorem steady_startsType : K.Steady (fun c => c.current.startsType) :=
  steady_starts (by decide) (by decide)

theorem steady_startsPattern : K.Steady (fun c => c.current.startsPattern) :=
  steady_starts (by decide) (by decide)

theorem steady_startsExpression : K.Steady (fun c => c.current.startsExpression) :=
  steady_starts (by decide) (by decide)

/-!
## Sequences
-/

theorem Replies.rebase {lax' : Bool} {τ : α -> Frame} {move : α -> α} {reply reply' : Reply α}
    (hsuffix : S <:+ T) (hlost : lax = true -> K.Lossy -> T = [] -> lax' = true ∧ S = [])
    (h : K.Replies lax T τ move reply reply') : K.Replies lax' S τ move reply reply' := by
  cases h with
  | ok twin => exact .ok twin
  | error said twin under => exact .error said twin (hsuffix.trans under)
  | fault found => exact .fault found
  | lost hlax hlossy hstack hfails =>
      rcases hlost hlax hlossy hstack with ⟨hlax', hstack'⟩
      exact .lost hlax' hlossy hstack' hfails

/-- Inside of brackets the first reading is never lost. -/
theorem Tracks.inner {lax' : Bool} {bracket : Bracket} [hunder : Bracket.Under S T]
    {first second : Parser α} {τ : α -> Frame} {move : α -> α}
    (h : K.Tracks lax (bracket :: T) σ pre first second τ move) :
    K.Tracks lax' S σ pre first second τ move := by
  intro c d htwin hpre
  apply (h c d htwin hpre).rebase (hunder.suffix.trans (List.suffix_cons bracket T))
  intro _ _ hstack
  cases hstack

theorem Tracks.loosen {first second : Parser α} {τ : α -> Frame} {move : α -> α}
    (h : K.Tracks false S σ pre first second τ move) :
    K.Tracks lax S σ pre first second τ move := by
  intro c d htwin hpre
  apply (h c d htwin hpre).rebase (List.suffix_refl S)
  intro hlax
  cases hlax

/-- Where nothing can be lost, a reading that may be lost is not. -/
theorem Tracks.tighten {first second : Parser α} {τ : α -> Frame} {move : α -> α}
    (hnever : lax = true -> K.Lossy -> S ≠ [])
    (h : K.Tracks lax S σ pre first second τ move) :
    K.Tracks false S σ pre first second τ move := by
  intro c d htwin hpre
  apply (h c d htwin hpre).rebase (List.suffix_refl S)
  intro hlax hlossy hstack
  exact absurd hstack (hnever hlax hlossy)

theorem Tracks.from {first second : Parser α} {τ : α -> Frame} {move : α -> α} {σ' : Frame}
    (hσ : σ.Refines σ') (h : K.Tracks lax S σ' pre first second τ move) :
    K.Tracks lax S σ pre first second τ move :=
  fun c d htwin hpre => h c d (K.refine hσ htwin) hpre

theorem Tracks.given {first second : Parser α} {τ : α -> Frame} {move : α -> α}
    {pre' : Cursor -> Prop} (hpre : forall c, pre c -> pre' c)
    (h : K.Tracks lax S σ pre' first second τ move) :
    K.Tracks lax S σ pre first second τ move :=
  fun c d htwin hc => h c d htwin (hpre c hc)

theorem Tracks.seq {first first' : Parser α} {next next' : α -> Parser β} {μ : α -> Frame}
    {τ : β -> Frame} {move : α -> α} {move' : β -> β} (post : α -> Cursor -> Prop)
    (hfirst : K.Tracks lax S σ pre first first' μ move)
    (hpost : forall {c d value c'}, K.Twin σ c d -> pre c -> first c = .ok value c' ->
      post value c')
    (hnext : forall value,
      K.Tracks lax S (μ value) (post value) (next value) (next' (move value)) τ move') :
    K.Tracks lax S σ pre (first >>= next) (first' >>= next') τ move' := by
  intro c d htwin hpre
  have hreply := hfirst c d htwin hpre
  have hknown : forall value c', first c = .ok value c' -> post value c' :=
    fun _ _ hfound => hpost htwin hpre hfound
  rw [Parser.bind_apply, Parser.bind_apply]
  generalize first c = reply at hreply hknown
  generalize first' d = reply' at hreply
  cases hreply with
  | ok twin => exact hnext _ _ _ twin (hknown _ _ rfl)
  | error said twin under => exact .error said twin under
  | fault found => exact .fault found
  | lost hlax hlossy hstack hfails =>
      refine .lost hlax hlossy hstack ?_
      intro value e
      cases reply with
      | ok found c' => exact absurd rfl (hfails found c')
      | error g c' => simp
      | fault found => simp

theorem Tracks.bind {first first' : Parser α} {next next' : α -> Parser β} {μ : α -> Frame}
    {τ : β -> Frame} {move : α -> α} {move' : β -> β}
    (hfirst : K.Tracks lax S σ pre first first' μ move)
    (hnext : forall value,
      K.Tracks lax S (μ value) (fun _ => True) (next value) (next' (move value)) τ move') :
    K.Tracks lax S σ pre (first >>= next) (first' >>= next') τ move' :=
  Tracks.seq (fun _ _ => True) hfirst (fun _ _ _ => trivial) hnext

theorem Tracks.value {value value' : α} {τ : α -> Frame} {move : α -> α}
    (hvalue : value' = move value) (hτ : σ.Refines (τ value)) :
    K.Tracks lax S σ pre (pure value) (pure value') τ move := by
  intro c d htwin _
  rw [hvalue]
  exact .ok (K.refine hτ htwin)

theorem Frame.refines_refl (σ : Frame) : σ.Refines σ := ⟨rfl, Or.inr (Phase.Refines.refl _), id⟩

theorem Tracks.give {value value' : α} {move : α -> α} (hvalue : value' = move value) :
    K.Tracks lax S σ pre (pure value) (pure value') (fun _ => σ) move :=
  Tracks.value hvalue (Frame.refines_refl σ)

theorem Tracks.map {parser parser' : Parser α} {f : α -> β} {τ : Frame} {move : α -> α}
    {move' : β -> β} (h : K.Tracks lax S σ pre parser parser' (fun _ => τ) move)
    (hf : forall value, f (move value) = move' (f value)) :
    K.Tracks lax S σ pre (f <$> parser) (f <$> parser') (fun _ => τ) move' :=
  Tracks.bind h (fun value => Tracks.give (hf value))

/-!
## Looking ahead
-/

theorem Tracks.look {view : Cursor -> β} {next next' : β -> Parser α} {τ : α -> Frame}
    {move : α -> α} (hview : forall {c d}, K.Twin σ c d -> pre c -> view d = view c)
    (h : forall seen, K.Tracks lax S σ (fun c => pre c ∧ view c = seen) (next seen) (next' seen)
      τ move) :
    K.Tracks lax S σ pre (Parser.look view >>= next) (Parser.look view >>= next') τ move := by
  intro c d htwin hpre
  show K.Replies lax S τ move (next (view c) c) (next' (view d) d)
  rw [hview htwin hpre]
  exact h (view c) c d htwin ⟨hpre, rfl⟩

theorem Tracks.test {test : Cursor -> Bool} {next next' : Bool -> Parser α} {τ : α -> Frame}
    {move : α -> α} (htest : K.Steady test)
    (h : forall seen, K.Tracks lax S σ (fun c => pre c ∧ test c = seen) (next seen) (next' seen)
      τ move) :
    K.Tracks lax S σ pre (Parser.look test >>= next) (Parser.look test >>= next') τ move :=
  Tracks.look (fun htwin _ => htest.eq (alike htwin)) h

theorem Tracks.isAt {kind : Kind} {next next' : Bool -> Parser α} {τ : α -> Frame}
    {move : α -> α} (hend : kind ≠ .endOfInput) (hbreak : kind ≠ .lineBreak)
    (h : forall seen, K.Tracks lax S σ (fun c => pre c ∧ c.isAt kind = seen) (next seen)
      (next' seen) τ move) :
    K.Tracks lax S σ pre (Parser.isAt kind >>= next) (Parser.isAt kind >>= next') τ move :=
  Tracks.test (steady_isAt hend hbreak) h

theorem Tracks.bounded {next next' : Nat -> Parser α} {τ : α -> Frame} {move : α -> α}
    (hnext : forall {c : Cursor} {bound bound'}, plainRecovery.Fits c -> c.ahead.length < bound ->
      c.ahead.length < bound' -> next bound c = next bound' c)
    (hnext' : forall {c : Cursor} {bound bound'}, plainRecovery.Fits c -> c.ahead.length < bound ->
      c.ahead.length < bound' -> next' bound c = next' bound' c)
    (h : forall bound, K.Tracks lax S σ pre (next bound) (next' bound) τ move) :
    K.Tracks lax S σ pre (Parser.look (fun cursor => cursor.ahead.length + 1) >>= next)
      (Parser.look (fun cursor => cursor.ahead.length + 1) >>= next') τ move := by
  intro c d htwin hpre
  rcases K.fits htwin with ⟨hc, hd, _⟩
  show K.Replies lax S τ move (next (c.ahead.length + 1) c) (next' (d.ahead.length + 1) d)
  have hbound : c.ahead.length < c.ahead.length + d.ahead.length + 1 := by omega
  have hbound' : d.ahead.length < c.ahead.length + d.ahead.length + 1 := by omega
  rw [hnext hc (Nat.lt_succ_self _) hbound, hnext' hd (Nat.lt_succ_self _) hbound']
  exact h _ c d htwin hpre

theorem Tracks.spanFrom {start : Span} {next next' : Span -> Parser α} {τ : α -> Frame}
    {move : α -> α} (hphase : σ.phase = .settled ∨ σ.phase = .joined)
    (h : forall span, K.Tracks lax S σ (fun _ => True) (next span)
      (next' (span.relabel K.relabelling)) τ move) :
    K.Tracks lax S σ pre (Parser.spanFrom start >>= next)
      (Parser.spanFrom (start.relabel K.relabelling) >>= next') τ move := by
  intro c d htwin _
  have hspan : d.spanFrom (start.relabel K.relabelling) =
      (c.spanFrom start).relabel K.relabelling := by
    rw [Cursor.spanFrom, Cursor.spanFrom, Span.relabel_cover, K.previous htwin hphase]
  have hreply := h (c.spanFrom start) c d htwin trivial
  rw [← hspan] at hreply
  exact hreply


/-!
## The end of a line
-/

def Refuses (parser : Parser α) : Prop :=
  forall c, c.AtMargin -> exists g, parser c = .error g c

theorem Refuses.bind {first : Parser α} {next : α -> Parser β} (h : Refuses first) :
    Refuses (first >>= next) := by
  intro c hc
  rcases h c hc with ⟨g, hg⟩
  exists g
  rw [Parser.bind_apply, hg]

theorem Refuses.look {view : Cursor -> β} {next : β -> Parser α}
    (h : forall c : Cursor, c.AtMargin -> exists g, next (view c) c = .error g c) :
    Refuses (Parser.look view >>= next) := h

theorem refuses_unexpected (expected : String) :
    Refuses (Parser.unexpected expected : Parser α) := fun _ _ => ⟨_, rfl⟩

theorem refuses_tooDeep : Refuses (Parser.tooDeep : Parser α) := fun _ _ => ⟨_, rfl⟩

theorem refuses_expectAs {kind : Kind} (hend : kind ≠ .endOfInput) (hbreak : kind ≠ .lineBreak)
    (description : String) : Refuses (Parser.expectAs kind description) := by
  intro c hc
  have hat : c.isAt kind = false := by
    rcases hc with hc | hc
    · simp [Cursor.isAt, hc, Ne.symm hend]
    · simp [Cursor.isAt, hc, Ne.symm hbreak]
  exists c.unexpected description
  simp [Parser.expectAs, Parser.expectOr, hat]

theorem Refuses.nested {parser : Parser α} (h : Refuses parser) :
    Refuses (Parser.nested parser) := by
  intro c hc
  unfold Parser.nested
  split
  · rcases h { c with depth := c.depth + 1 } hc with ⟨g, hg⟩
    exists g
    rw [hg]
    rfl
  · exact ⟨_, rfl⟩

theorem Replies.refused {τ : α -> Frame} {move : α -> α} {reply reply' : Reply α} {c d : Cursor}
    (htwin : K.Twin σ c d) (hwhole : ¬ K.Whole) (hunder : S <:+ σ.stack)
    (hreply : exists g, reply = .error g c) (hreply' : exists h, reply' = .error h d) :
    K.Replies lax S τ move reply reply' := by
  rcases hreply with ⟨g, hg⟩
  rcases hreply' with ⟨h, hh⟩
  rw [hg, hh]
  exact .error (K.saidAll hwhole g h) htwin hunder

/-- The span of the current token is asked for by rules that refuse to begin at the
end of a line. -/
theorem Tracks.start {next next' : Span -> Parser α} {τ : α -> Frame} {move : α -> α}
    [hunder : Bracket.Under S σ.stack]
    (hrefuses : forall span, Refuses (next span)) (hrefuses' : forall span, Refuses (next' span))
    (h : forall span, K.Tracks lax S σ pre (next span) (next' (span.relabel K.relabelling))
      τ move) :
    K.Tracks lax S σ pre (Parser.currentSpan >>= next) (Parser.currentSpan >>= next')
      τ move := by
  intro c d htwin hpre
  rcases K.current htwin with hsame | ⟨_, _, hc, hd, hwhole⟩
  · have hreply := h c.current.span c d htwin hpre
    have hspan : d.current.span = c.current.span.relabel K.relabelling := by rw [hsame]; rfl
    rw [← hspan] at hreply
    exact hreply
  · exact Replies.refused htwin hwhole hunder.suffix (hrefuses _ c hc) (hrefuses' _ d hd)

theorem Tracks.startAt {next next' : Span -> Parser α} {τ : α -> Frame} {move : α -> α}
    (hmargin : forall c, pre c -> ¬ c.AtMargin)
    (h : forall span, K.Tracks lax S σ pre (next span) (next' (span.relabel K.relabelling))
      τ move) :
    K.Tracks lax S σ pre (Parser.currentSpan >>= next) (Parser.currentSpan >>= next')
      τ move := by
  intro c d htwin hpre
  have hreply := h c.current.span c d htwin hpre
  have hspan : d.current.span = c.current.span.relabel K.relabelling := by
    rw [same_of_kind htwin (hmargin c hpre)]
    rfl
  rw [← hspan] at hreply
  exact hreply

theorem Tracks.kindOr {next next' : Kind -> Parser α} {τ : α -> Frame} {move : α -> α}
    (hmargin : forall {c d}, K.Twin σ c d -> pre c -> c.AtMargin -> d.AtMargin -> ¬ K.Whole ->
      K.Replies lax S τ move (next c.kind c) (next' d.kind d))
    (h : forall kind, K.Tracks lax S σ (fun c => pre c ∧ c.kind = kind) (next kind) (next' kind)
      τ move) :
    K.Tracks lax S σ pre (Parser.currentKind >>= next) (Parser.currentKind >>= next')
      τ move := by
  intro c d htwin hpre
  rcases K.current htwin with hsame | ⟨_, _, hc, hd, hwhole⟩
  · show K.Replies lax S τ move (next c.kind c) (next' d.kind d)
    rw [kind_eq hsame]
    exact h c.kind c d htwin ⟨hpre, rfl⟩
  · exact hmargin htwin hpre hc hd hwhole

theorem Tracks.kind {next next' : Kind -> Parser α} {τ : α -> Frame} {move : α -> α}
    [hunder : Bracket.Under S σ.stack]
    (hrefuses : Refuses (Parser.currentKind >>= next))
    (hrefuses' : Refuses (Parser.currentKind >>= next'))
    (h : forall kind, K.Tracks lax S σ (fun c => pre c ∧ c.kind = kind) (next kind) (next' kind)
      τ move) :
    K.Tracks lax S σ pre (Parser.currentKind >>= next) (Parser.currentKind >>= next') τ move := by
  apply Tracks.kindOr _ h
  intro c d htwin _ hc hd hwhole
  exact Replies.refused htwin hwhole hunder.suffix (hrefuses c hc) (hrefuses' d hd)

/-!
## Stopping
-/

theorem Tracks.stop [hunder : Bracket.Under S σ.stack] {parser parser' : Parser α}
    {τ : α -> Frame} {move : α -> α} (cause : Token -> Cause)
    (hcause : forall token : Token, cause (token.relabel K.relabelling) = cause token)
    (hparser : forall c, parser c = .error ⟨cause c.current, c.current.span⟩ c)
    (hparser' : forall c, parser' c = .error ⟨cause c.current, c.current.span⟩ c) :
    K.Tracks lax S σ pre parser parser' τ move := by
  intro c d htwin _
  rw [hparser, hparser']
  rcases K.current htwin with hsame | ⟨_, _, _, _, hwhole⟩
  · have hsaid : K.Said ⟨cause c.current, c.current.span⟩ ⟨cause d.current, d.current.span⟩ := by
      rw [hsame, hcause]
      exact K.said htwin rfl
    exact .error hsaid htwin hunder.suffix
  · exact .error (K.saidAll hwhole _ _) htwin hunder.suffix

theorem Tracks.unexpected [Bracket.Under S σ.stack] {τ : α -> Frame} {move : α -> α}
    (expected : String) :
    K.Tracks lax S σ pre (Parser.unexpected expected) (Parser.unexpected expected) τ move :=
  Tracks.stop (Cursor.unexpectedCause expected) (fun _ => rfl) (fun _ => rfl) (fun _ => rfl)

theorem Tracks.tooDeep [Bracket.Under S σ.stack] {τ : α -> Frame} {move : α -> α} :
    K.Tracks lax S σ pre Parser.tooDeep Parser.tooDeep τ move :=
  Tracks.stop (fun _ => .nestingTooDeep Parser.maxDepth) (fun _ => rfl) (fun _ => rfl)
    (fun _ => rfl)

theorem Tracks.mixedSeparators [Bracket.Under S σ.stack] {τ : α -> Frame} {move : α -> α}
    (construct : String) :
    K.Tracks lax S σ pre (Parser.mixedSeparators construct) (Parser.mixedSeparators construct)
      τ move :=
  Tracks.stop
    (fun _ => .ambiguousElision construct "`;` and `,` can't be mixed in one sequence")
    (fun _ => rfl) (fun _ => rfl) (fun _ => rfl)

/-!
## Reading tokens
-/

theorem Tracks.advance {S' : List Bracket}
    (h : forall c, pre c -> c.kind ≠ .endOfInput ∧ c.kind ≠ .lineBreak ∧
      Bracket.step T c.kind = some S' ∧ (p.behind c.current).Refines q) :
    K.Tracks lax S ⟨p, T, k⟩ pre Parser.advance Parser.advance (fun _ => ⟨q, S', k⟩)
      (Token.relabel K.relabelling) := by
  intro c d htwin hpre
  rcases h c hpre with ⟨hend, hbreak, hstep, hphase⟩
  have hsame := same_of_kind htwin (not_atMargin rfl hend hbreak)
  have hrefines : Frame.Refines ⟨p.behind c.current, S', k⟩ ⟨q, S', k⟩ :=
    ⟨rfl, Or.inr hphase, id⟩
  have htwin' := K.refine hrefines (K.read htwin hsame hend hbreak hstep)
  show K.Replies lax S _ _ (.ok c.current c.advance) (.ok d.current d.advance)
  rw [hsame]
  exact .ok htwin'

end Correspondence
end Linewise
