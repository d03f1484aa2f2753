import Linewise.Proofs.Carrying.Pairing
import Linewise.Proofs.Parallel.Combinator

/-!
# Combinators carried over

What becomes of single tokens, of line breaks, of trying, nesting and repeating, and of
the shared layouts.  A trial that fails in the first reading has to fail in the second
one, so what is tried is a sharp reading.
-/

namespace Linewise
namespace Pairing

open Linewise.Parser

variable {α β : Type} {P : Pairing} {sharp j : Bool} {S S' T : List Bracket} {k : Nat}
  {σ : Standing} {pre : Cursor -> Prop}

/-!
## Single tokens
-/

/-- A parenthesis that can be closed was opened, so the current tokens are the same. -/
theorem same_of_step {c d : Cursor} (h : P.Twin ⟨false, S, k⟩ c d) (hend : c.kind ≠ .endOfInput)
    (hstep : Bracket.step S c.kind = some S') : d.current = c.current := by
  rcases P.current h with hsame | ⟨_, hnone, hc, _⟩
  · exact hsame
  · rcases hc with hkind | hkind
    · exact absurd hkind hend
    · rw [hnone, hkind] at hstep
      cases hstep

theorem isAt_eq {kind : Kind} {c d : Cursor} (h : P.Twin ⟨false, S, k⟩ c d)
    (hend : kind ≠ .endOfInput) (hstep : Bracket.step S kind = some S') :
    d.isAt kind = c.isAt kind := by
  rcases P.current h with hsame | ⟨_, hnone, hc, hd⟩
  · simp [Cursor.isAt, Cursor.kind, hsame]
  · have hclose : kind ≠ .mark .closeParen := by
      rintro rfl
      rw [hnone] at hstep
      cases hstep
    rw [(steady_isAt hend hclose).close hc, (steady_isAt hend hclose).close hd]

theorem grows_advance : Grows advance := by
  intro c
  have hsame : c.advance.errors = c.errors := by
    unfold Cursor.advance
    split
    · rfl
    · split <;> rfl
  show c.errors <+: c.advance.errors
  simp [hsame]

theorem Carries.advance (h : forall c, pre c -> c.kind ≠ .endOfInput ∧
      Bracket.step S c.kind = some S') :
    P.Carries sharp ⟨false, S, k⟩ pre Parser.advance
      (fun token => ⟨token.kind.joins, S', k⟩) where
  grows := grows_advance
  replies := by
    intro c d htwin hpre _
    rcases h c hpre with ⟨hend, hstep⟩
    have hsame := same_of_step htwin hend hstep
    refine ⟨d.advance, ?_, P.read htwin hsame hend hstep⟩
    rw [Parser.advance, hsame]

theorem Carries.advanceKind {kind : Kind} (hend : kind ≠ .endOfInput)
    (hstep : Bracket.step S kind = some S') (h : forall c, pre c -> c.kind = kind) :
    P.Carries sharp ⟨false, S, k⟩ pre Parser.advance (fun _ => ⟨kind.joins, S', k⟩) where
  grows := grows_advance
  replies := by
    intro c d htwin hpre _
    have hkind := h c hpre
    have hend : c.kind ≠ .endOfInput := by rwa [hkind]
    have hstep : Bracket.step S c.kind = some S' := by rwa [hkind]
    have hsame := same_of_step htwin hend hstep
    have htwin' := P.read htwin hsame hend hstep
    rw [hkind] at htwin'
    refine ⟨d.advance, ?_, htwin'⟩
    rw [Parser.advance, hsame]

theorem Carries.advanceAt (kind : Kind) (hend : kind ≠ .endOfInput)
    (hstep : Bracket.step S kind = some S') (h : forall c, pre c -> c.isAt kind = true) :
    P.Carries sharp ⟨false, S, k⟩ pre Parser.advance (fun _ => ⟨kind.joins, S', k⟩) :=
  Carries.advanceKind hend hstep (fun c hc => by simpa [Cursor.isAt] using h c hc)

theorem Carries.expectAs {kind : Kind} (hend : kind ≠ .endOfInput)
    (hstep : Bracket.step S kind = some S') (description : String) :
    P.Carries sharp ⟨false, S, k⟩ pre (Parser.expectAs kind description)
      (fun _ => ⟨kind.joins, S', k⟩) where
  grows := by
    intro c
    unfold Parser.expectAs expectOr
    split
    · exact grows_advance c
    · exact List.prefix_refl _
  replies := by
    intro c d htwin _
    have hat := isAt_eq htwin hend hstep
    unfold Parser.expectAs expectOr
    rw [hat]
    split
    · rename_i hkind
      have hcarries : P.Carries sharp ⟨false, S, k⟩ (fun e => e.isAt kind = true)
          Parser.advance (fun _ => ⟨kind.joins, S', k⟩) := Carries.advanceAt kind hend hstep
        (fun _ he => he)
      exact hcarries.replies htwin hkind
    · exact Replies.balked (by simp) (by simp)

theorem Carries.expectPlain {kind : Kind} (hend : kind ≠ .endOfInput)
    (hplain : Bracket.plain kind = true) (description : String) :
    P.Carries sharp ⟨false, S, k⟩ pre (Parser.expectAs kind description)
      (fun _ => ⟨kind.joins, S, k⟩) :=
  Carries.expectAs hend (Bracket.step_plain hplain S) description

theorem balks_expectAs {kind : Kind} (hend : kind ≠ .endOfInput)
    (hclose : kind ≠ .mark .closeParen) (description : String) :
    Balks (Parser.expectAs kind description) := by
  intro c hc value d hok
  have hat := (steady_isAt hend hclose).close hc
  simp [Parser.expectAs, expectOr, hat] at hok

/-!
## Names and literals
-/

theorem Carries.leaf {kind : Kind} (hend : kind ≠ .endOfInput)
    (hplain : Bracket.plain kind = true) (description : String) :
    P.Carries sharp ⟨false, S, k⟩ pre (Grammar.leaf kind description)
      (fun _ => ⟨kind.joins, S, k⟩) :=
  Carries.bind (Carries.expectPlain hend hplain description) (fun _ => Carries.give)

theorem Carries.lowercaseName (description : String) :
    P.Carries sharp ⟨false, S, k⟩ pre (Grammar.leaf .lowercaseName description)
      (fun _ => ⟨false, S, k⟩) := Carries.leaf (by simp) rfl description

theorem Carries.capitalName (description : String) :
    P.Carries sharp ⟨false, S, k⟩ pre (Grammar.leaf .capitalName description)
      (fun _ => ⟨false, S, k⟩) := Carries.leaf (by simp) rfl description

theorem Carries.number :
    P.Carries sharp ⟨false, S, k⟩ pre Grammar.number (fun _ => ⟨false, S, k⟩) :=
  Carries.leaf (by simp) rfl _

theorem Carries.text :
    P.Carries sharp ⟨false, S, k⟩ pre Grammar.text (fun _ => ⟨false, S, k⟩) := by
  apply Carries.bind (Carries.expectPlain (by simp) rfl _)
  intro token
  cases Grammar.unquoted? token.value with
  | some value => exact Carries.give
  | none => exact Carries.faulty _

/-!
## Line breaks and comments
-/

theorem Carries.skip {next : Parser α} {τ : α -> Standing}
    (h : P.Carries sharp ⟨false, S, k⟩ (fun _ => True) next τ) :
    P.Carries sharp ⟨j, S, k⟩ pre (skipLineBreaks >>= fun _ => next) τ where
  grows c := h.grows c.skipLineBreaks
  replies htwin _ := h.replies (P.skip htwin) trivial

theorem Carries.skipInside (hstack : P.Whole ∨ S ≠ []) :
    P.Carries sharp ⟨false, S, k⟩ pre skipLineBreaks (fun _ => ⟨false, S, k⟩) where
  grows _ := List.prefix_refl _
  replies := by
    intro c d htwin _ _
    have hsame := same_of_sheltered htwin hstack
    refine ⟨d.skipLineBreaks, ?_, P.skip htwin⟩
    rw [skipLineBreaks, Cursor.isAt, Cursor.isAt, Cursor.kind, Cursor.kind, hsame]

theorem Carries.leadingComments :
    P.Carries sharp ⟨false, S, k⟩ pre leadingComments (fun _ => ⟨false, S, k⟩) where
  grows _ := List.prefix_refl _
  replies := by
    intro c d htwin _ _
    rcases P.trivia htwin with ⟨hcomments, htwin'⟩
    refine ⟨d.skipTrivia, ?_, htwin'⟩
    rw [Parser.leadingComments, hcomments]

/-!
## Trying and nesting
-/

theorem grows_speculate {parser : Parser α} (h : parser.Grows) : (speculate parser).Grows := by
  intro c
  have hreply := h c
  unfold Parser.speculate
  generalize parser c = reply at hreply
  cases reply with
  | ok value d => exact hreply
  | fault found => trivial
  | error g d =>
      have htake : d.errors.take c.errors.length = c.errors :=
        (List.prefix_iff_eq_take.mp hreply).symm
      show c.errors <+: d.errors.take c.errors.length
      simp [htake]

theorem Carries.speculate {parser : Parser α} {μ : Standing} {least : Nat}
    {script : α -> List Symbol} {pre' : Cursor -> Prop}
    (hreads : plainRecovery.ReadsIf least pre' parser script)
    (hpre' : forall {c d}, P.Twin σ c d -> pre c -> pre' c ∧ pre' d)
    (h : P.Carries true σ pre parser (fun _ => μ)) :
    P.Carries sharp σ pre (speculate parser)
      (fun found => if found.isSome then μ else σ) where
  grows := grows_speculate h.grows
  replies := by
    intro c d htwin hpre
    rcases hpre' htwin hpre with ⟨hc, hd⟩
    have hreply := h.replies htwin hpre
    have hread := hreads.elim (P.fits htwin).1 hc
    have hread' := hreads.elim (P.fits htwin).2 hd
    unfold Parser.speculate
    generalize parser c = reply at hreply hread
    cases reply with
    | fault found => trivial
    | ok value c' =>
        intro _
        rcases hreply (Or.inl rfl) with ⟨d', hd', htwin'⟩
        exact ⟨d', by rw [hd'], htwin'⟩
    | error g c' =>
        intro _
        rcases hread with ⟨read, noted, passage, _⟩
        have hnever := hreply rfl
        generalize parser d = reply' at hnever hread'
        cases reply' with
        | ok value d' => exact absurd rfl (hnever value d')
        | fault found => exact hread'.elim
        | error g' d' =>
            rcases hread' with ⟨read', noted', passage', _⟩
            dsimp only
            rw [Cursor.restore_checkpoint passage, Cursor.restore_checkpoint passage']
            exact ⟨d, rfl, htwin⟩

theorem grows_nested {parser : Parser α} (h : parser.Grows) : (nested parser).Grows := by
  intro c
  unfold Parser.nested
  split
  · have hreply := h { c with depth := c.depth + 1 }
    generalize parser { c with depth := c.depth + 1 } = reply at hreply
    cases reply with
    | fault found => trivial
    | ok value d =>
        unfold closeLevel
        dsimp only
        cases d.depth with
        | zero => trivial
        | succ depth => exact hreply
    | error g d =>
        unfold closeLevel
        dsimp only
        cases d.depth with
        | zero => trivial
        | succ depth => exact hreply
  · exact List.prefix_refl _

theorem Carries.nested {parser : Parser α} {j' : Bool} (hroom : k + P.lift < maxDepth)
    (h : P.Carries sharp ⟨j, S, k + 1⟩ (fun _ => True) parser (fun _ => ⟨j', T, k + 1⟩)) :
    P.Carries sharp ⟨j, S, k⟩ pre (nested parser) (fun _ => ⟨j', T, k⟩) where
  grows := grows_nested h.grows
  replies := by
    intro c d htwin _
    rcases P.depth htwin with ⟨hc, hd⟩
    have hc : c.depth = k := hc
    have hd : d.depth = k + P.lift := hd
    have htwin' := P.deepen (k + 1) htwin
    have hdeeper : ({ c with depth := k + 1 } : Cursor) = { c with depth := c.depth + 1 } := by
      rw [hc]
    have hdeeper' : ({ d with depth := k + 1 + P.lift } : Cursor) =
        { d with depth := d.depth + 1 } := by
      rw [hd, Nat.add_right_comm]
    rw [hdeeper, hdeeper'] at htwin'
    have hreply := h.replies htwin' trivial
    unfold Parser.nested
    rw [if_pos (by omega), if_pos (by omega)]
    generalize parser { c with depth := c.depth + 1 } = reply at hreply
    generalize parser { d with depth := d.depth + 1 } = reply' at hreply
    cases reply with
    | fault found => trivial
    | error g c' =>
        have hlax : sharp = true -> forall value e, closeLevel reply' ≠ .ok value e := by
          intro hsharp value e hok
          have hnever := hreply hsharp
          cases reply' with
          | ok found d' => exact hnever found d' rfl
          | fault found => cases hok
          | error g' d' =>
              rw [closeLevel] at hok
              split at hok <;> cases hok
        rw [closeLevel]
        cases c'.depth with
        | zero => trivial
        | succ depth => exact hlax
    | ok value c' =>
        rw [closeLevel]
        cases hdepth : c'.depth with
        | zero => trivial
        | succ depth =>
            intro hclean
            rcases hreply hclean with ⟨d', rfl, htwin''⟩
            rcases P.depth htwin'' with ⟨hc', hd'⟩
            have hk : depth = k := by
              have hsucc : c'.depth = k + 1 := hc'
              omega
            have hk' : d'.depth = k + P.lift + 1 := by
              have hsucc : d'.depth = k + 1 + P.lift := hd'
              omega
            rw [closeLevel, hk', hk]
            exact ⟨_, rfl, P.deepen k htwin''⟩

/-!
## Repeating
-/

theorem Carries.repeatUpTo {more : Cursor -> Bool} {item : Parser α}
    (hmore : forall {c d}, P.Twin σ c d -> more d = more c)
    (hitem : P.Carries sharp σ (fun c => more c = true) item (fun _ => σ)) (bound : Nat) :
    P.Carries sharp σ pre (repeatUpTo more item bound) (fun _ => σ) := by
  induction bound generalizing pre with
  | zero =>
      constructor
      · intro c
        unfold Parser.repeatUpTo
        cases more c with
        | true => trivial
        | false => exact List.prefix_refl _
      · intro c d htwin _
        unfold Parser.repeatUpTo
        rw [hmore htwin]
        cases more c with
        | true => trivial
        | false => exact fun _ => ⟨d, rfl, htwin⟩
  | succ bound ih =>
      have hround : P.Carries sharp σ (fun c => more c = true)
          (do let first <- item
              let rest <- Parser.repeatUpTo more item bound
              pure (first :: rest)) (fun _ => σ) := by
        apply Carries.bind hitem
        intro first
        apply Carries.bind ih
        intro rest
        exact Carries.give
      constructor
      · intro c
        unfold Parser.repeatUpTo
        cases more c with
        | true => exact hround.grows c
        | false => exact List.prefix_refl _
      · intro c d htwin _
        unfold Parser.repeatUpTo
        rw [hmore htwin]
        cases hc : more c with
        | true => exact hround.replies htwin hc
        | false => exact fun _ => ⟨d, rfl, htwin⟩

theorem Carries.repeatWhile {more : Cursor -> Bool} {item : Parser α}
    {script : α -> List Symbol}
    (hreads : plainRecovery.ReadsIf 1 (fun c => more c = true) item script)
    (hend : forall c : Cursor, c.kind = .endOfInput -> more c = false)
    (hmore : forall {c d}, P.Twin σ c d -> more d = more c)
    (hitem : P.Carries sharp σ (fun c => more c = true) item (fun _ => σ)) :
    P.Carries sharp σ pre (repeatWhile more item) (fun _ => σ) where
  grows := by
    intro c
    have hbounded : P.Carries sharp σ pre (Parser.repeatUpTo more item c.ahead.length)
        (fun _ => σ) := Carries.repeatUpTo hmore hitem c.ahead.length
    exact hbounded.grows c
  replies := by
    intro c d htwin hpre
    rcases P.fits htwin with ⟨hc, hd⟩
    unfold Parser.repeatWhile
    rw [Account.repeatUpTo_bound hreads hend _ (c.ahead.length + d.ahead.length) hc
        (Nat.le_refl _) (Nat.le_add_right _ _),
      Account.repeatUpTo_bound hreads hend _ (c.ahead.length + d.ahead.length) hd
        (Nat.le_refl _) (Nat.le_add_left _ _)]
    exact (Carries.repeatUpTo hmore hitem _).replies htwin hpre

theorem Carries.bounded {next : Nat -> Parser α} {τ : α -> Standing}
    (hnext : forall {c : Cursor} {bound bound'}, plainRecovery.Fits c -> c.ahead.length < bound ->
      c.ahead.length < bound' -> next bound c = next bound' c)
    (h : forall bound, P.Carries sharp σ pre (next bound) τ) :
    P.Carries sharp σ pre (Parser.look (fun cursor => cursor.ahead.length + 1) >>= next) τ where
  grows c := (h (c.ahead.length + 1)).grows c
  replies := by
    intro c d htwin hpre
    rcases P.fits htwin with ⟨hc, hd⟩
    show P.Replies sharp c.errors τ (next (c.ahead.length + 1) c) (next (d.ahead.length + 1) d)
    have hbound : c.ahead.length < c.ahead.length + d.ahead.length + 1 := by omega
    have hbound' : d.ahead.length < c.ahead.length + d.ahead.length + 1 := by omega
    rw [hnext hc (Nat.lt_succ_self _) hbound, hnext hd (Nat.lt_succ_self _) hbound']
    exact (h _).replies htwin hpre

/-!
## Lines
-/

theorem Carries.lines {bracket : Bracket} {terminator : Kind} {item : Parser α}
    {script : α -> List Symbol} (hreads : plainRecovery.Reads 1 item script)
    (h : P.Carries sharp ⟨false, bracket :: S, k⟩ (fun _ => True) item
      (fun _ => ⟨false, bracket :: S, k⟩)) :
    P.Carries sharp ⟨j, bracket :: S, k⟩ pre (lines terminator item)
      (fun _ => ⟨false, bracket :: S, k⟩) := by
  have hinside : P.Whole ∨ bracket :: S ≠ [] := Or.inr (by simp)
  have hline : P.Carries sharp ⟨false, bracket :: S, k⟩ (fun _ => True)
      (wholeLine terminator item) (fun _ => ⟨false, bracket :: S, k⟩) := by
    apply Carries.bind h
    intro value
    apply Carries.bind (Carries.skipInside hinside)
    intro skipped
    apply Carries.view (fun token => token.kind == terminator) hinside
    intro ended
    show P.Carries sharp _ _ (if (skipped || ended) = true then _ else _) _
    split
    · exact Carries.give
    · exact Carries.unexpected _
  apply Carries.skip
  apply Carries.repeatWhile (Account.Reads.wholeLine hreads).readsIf
  · intro c hc
    simp [Cursor.hasTokens, Cursor.isAt, hc]
  · intro c d htwin
    have hsame := same_of_sheltered htwin hinside
    simp [Cursor.hasTokens, Cursor.isAt, Cursor.kind, hsame]
  · exact hline.given (fun _ _ => trivial)

/-!
## Parentheses
-/

theorem step_separator {separators : List Kind}
    (hseparators : forall kind, kind ∈ separators -> kind = .mark .semicolon ∨ kind = .mark .comma)
    {kind : Kind} (hmem : kind ∈ separators) :
    kind ≠ .endOfInput ∧ Bracket.step S kind = some S ∧ kind.joins = false := by
  rcases hseparators kind hmem with rfl | rfl
  · exact ⟨by simp, Bracket.step_plain rfl S, rfl⟩
  · exact ⟨by simp, Bracket.step_plain rfl S, rfl⟩

theorem Carries.separator {separators : List Kind} {kind : Kind}
    (hseparators : forall kind, kind ∈ separators -> kind = .mark .semicolon ∨ kind = .mark .comma)
    (hmem : kind ∈ separators) (h : forall c, pre c -> c.kind = kind) :
    P.Carries sharp ⟨false, S, k⟩ pre Parser.advance (fun _ => ⟨false, S, k⟩) := by
  rcases step_separator (S := S) hseparators hmem with ⟨hend, hstep, hjoins⟩
  have hcarries : P.Carries sharp ⟨false, S, k⟩ pre Parser.advance
      (fun _ => ⟨kind.joins, S, k⟩) := Carries.advanceKind hend hstep h
  rwa [hjoins] at hcarries

theorem Carries.separated {construct : String} {separators : List Kind}
    (hseparators : forall kind, kind ∈ separators -> kind = .mark .semicolon ∨ kind = .mark .comma)
    {element : Parser α}
    (helement : P.Carries sharp ⟨false, .round :: S, k⟩ (fun _ => True) element
      (fun _ => ⟨false, .round :: S, k⟩))
    (bound : Nat) (separator : Option Kind) (multiline : Bool) :
    P.Carries sharp ⟨false, .round :: S, k⟩ pre
      (separated construct separators element bound separator multiline)
      (fun _ => ⟨false, .round :: S, k⟩) := by
  have hinside : P.Whole ∨ Bracket.round :: S ≠ [] := Or.inr (by simp)
  induction bound generalizing separator multiline pre with
  | zero => exact Carries.faulty _
  | succ bound ih =>
      apply Carries.kindInside hinside
      intro kind
      split
      · rename_i hmem
        have hmem : kind ∈ separators := by simpa using hmem
        split
        · exact Carries.stop (fun _ => ⟨_, rfl⟩)
        · apply Carries.bind (Carries.separator hseparators hmem (fun _ hc => hc.2))
          intro _
          apply Carries.bind (Carries.skipInside hinside)
          intro skipped
          apply Carries.view (fun token => token.kind == .mark .closeParen) hinside
          intro closed
          split
          · exact Carries.give
          · apply Carries.bind (helement.given (fun _ _ => trivial))
            intro next
            apply Carries.bind (ih _ _)
            intro found
            exact Carries.give
      · split
        · exact Carries.give
        · exact Carries.unexpected _

theorem Carries.enclosedRest {construct : String} {separators : List Kind}
    (hseparators : forall kind, kind ∈ separators -> kind = .mark .semicolon ∨ kind = .mark .comma)
    {element : Parser α} {script : α -> List Symbol}
    (hreads : plainRecovery.Reads 1 element script)
    (helement : P.Carries sharp ⟨false, .round :: S, k⟩ (fun _ => True) element
      (fun _ => ⟨false, .round :: S, k⟩))
    (first : α) (multiline : Bool) :
    P.Carries sharp ⟨false, .round :: S, k⟩ pre
      (enclosedRest construct separators first multiline element) (fun _ => ⟨false, S, k⟩) := by
  have hsilent : forall kind, kind ∈ separators -> kind.isSilent = true := by
    intro kind hmem
    rcases hseparators kind hmem with rfl | rfl
    · rfl
    · rfl
  apply Carries.bounded
  · intro c bound bound' hc hbound hbound'
    rw [bind_apply, bind_apply,
      Account.separated_bound hreads hsilent bound bound' none multiline hc hbound hbound']
  · intro bound
    apply Carries.bind (Carries.separated hseparators helement bound none multiline)
    intro found
    apply Carries.bind (Carries.expectAs (by simp) rfl _)
    intro _
    rcases found with ⟨separator, rest⟩
    cases separator with
    | none => exact Carries.give
    | some separator => exact Carries.give

theorem Carries.enclosed {construct : String} {separators : List Kind}
    (hseparators : forall kind, kind ∈ separators -> kind = .mark .semicolon ∨ kind = .mark .comma)
    {element : Parser α} {script : α -> List Symbol}
    (hreads : plainRecovery.Reads 1 element script)
    (helement : P.Carries sharp ⟨false, .round :: S, k⟩ (fun _ => True) element
      (fun _ => ⟨false, .round :: S, k⟩)) :
    P.Carries sharp ⟨false, S, k⟩ pre (enclosed construct separators element)
      (fun _ => ⟨false, S, k⟩) := by
  have hinside : P.Whole ∨ Bracket.round :: S ≠ [] := Or.inr (by simp)
  apply Carries.bind (Carries.expectAs (by simp) rfl _)
  intro _
  apply Carries.view (fun token => token.kind == .mark .closeParen) hinside
  intro empty
  split
  · rename_i hempty
    refine Carries.bind (Carries.advanceAt (.mark .closeParen) (by simp) rfl ?_) ?_
    · rintro c ⟨_, hc⟩
      exact hc.trans hempty
    · intro _
      exact Carries.give
  · apply Carries.bind (Carries.skipInside hinside)
    intro multiline
    apply Carries.kindInside hinside
    intro kind
    split
    · rename_i hmem
      have hmem : kind ∈ separators := by simpa using hmem
      apply Carries.bind (Carries.separator hseparators hmem (fun _ hc => hc.2))
      intro _
      apply Carries.skip
      apply Carries.bind (Carries.expectAs (by simp) rfl _)
      intro _
      exact Carries.give
    · apply Carries.bind (helement.given (fun _ _ => trivial))
      intro first
      exact Carries.enclosedRest hseparators hreads helement first multiline

end Pairing
end Linewise
