import Linewise.Proofs.Parallel.Correspondence

/-!
# Combinators read side by side

What two readings make of single tokens, of line breaks, of trying, nesting and
repeating, and of the shared layouts.  A loop is bounded by the tokens that are
left, of which the two readings need not have the same number, so loops are first
shown not to hang on their bounds.
-/

namespace Linewise

/-!
## Bounds of loops
-/

namespace Account

open Linewise.Parser

variable {α : Type} {A : Account}

theorem length_ahead_le {c d : Cursor} {read : List Token} {noted : List Diagnostic}
    {least bound : Nat} (hbound : c.ahead.length <= bound + least)
    (passage : c.Passage read noted d) (hleast : least <= read.length) :
    d.ahead.length <= bound := by
  have hahead := congrArg List.length passage.ahead
  rw [List.length_append] at hahead
  omega

theorem bind_congr {β : Type} {first : Parser α} {next next' : α -> Parser β} {c : Cursor}
    (h : forall value d, first c = .ok value d -> next value d = next' value d) :
    (first >>= next) c = (first >>= next') c := by
  rw [bind_apply, bind_apply]
  cases hfirst : first c with
  | ok value d => exact h value d hfirst
  | error diagnostic d => rfl
  | fault found => rfl

theorem repeatUpTo_bound {more : Cursor -> Bool} {item : Parser α} {script : α -> List Symbol}
    (hitem : A.ReadsIf 1 (fun c => more c = true) item script)
    (hend : forall c : Cursor, c.kind = .endOfInput -> more c = false) (bound bound' : Nat)
    {c : Cursor} (hc : A.Fits c) (hbound : c.ahead.length <= bound)
    (hbound' : c.ahead.length <= bound') :
    repeatUpTo more item bound c = repeatUpTo more item bound' c := by
  have hnone : c.ahead.length <= 0 -> more c = false := by
    intro hlength
    have hahead : c.ahead = [] := List.length_eq_zero_iff.mp (Nat.le_zero.mp hlength)
    exact hend c (Cursor.kind_of_ahead_nil hc.final hahead)
  induction bound generalizing bound' c with
  | zero =>
      have hmore := hnone hbound
      cases bound' with
      | zero => rfl
      | succ bound' => simp [repeatUpTo, hmore]
  | succ bound ih =>
      cases bound' with
      | zero =>
          have hmore := hnone hbound'
          simp [repeatUpTo, hmore]
      | succ bound' =>
          unfold repeatUpTo
          split
          · rename_i hmore
            apply bind_congr
            intro value d hvalue
            have hreply := hitem.elim hc hmore
            rw [hvalue] at hreply
            rcases hreply with ⟨read, noted, passage, hleast, _⟩
            have hfits := hc.after passage
            have hd := length_ahead_le hbound passage hleast
            have hd' := length_ahead_le hbound' passage hleast
            have hrest := ih bound' hfits hd hd' (fun hlength => by
              have hahead : d.ahead = [] := List.length_eq_zero_iff.mp (Nat.le_zero.mp hlength)
              exact hend d (Cursor.kind_of_ahead_nil hfits.final hahead))
            rw [bind_apply, bind_apply, hrest]
          · rfl

theorem separated_bound {construct : String} {separators : List Kind} {element : Parser α}
    {script : α -> List Symbol} (helement : A.Reads 1 element script)
    (hseparators : forall kind, kind ∈ separators -> kind.isSilent = true)
    (bound bound' : Nat) (separator : Option Kind) (multiline : Bool) {c : Cursor}
    (hc : A.Fits c) (hbound : c.ahead.length < bound) (hbound' : c.ahead.length < bound') :
    separated construct separators element bound separator multiline c =
      separated construct separators element bound' separator multiline c := by
  induction bound generalizing bound' separator multiline c with
  | zero => exact absurd hbound (Nat.not_lt_zero _)
  | succ bound ih =>
      cases bound' with
      | zero => exact absurd hbound' (Nat.not_lt_zero _)
      | succ bound' =>
          unfold separated
          apply bind_congr
          intro kind d hkind
          cases hkind
          split
          · rename_i hmem
            have hsilent := hseparators c.kind (by simpa using hmem)
            have hne : c.kind ≠ .endOfInput := by
              intro hend
              rw [hend] at hsilent
              cases hsilent
            have hadvance := Cursor.advance_passage hc.final hne
            split
            · rfl
            · apply bind_congr
              intro token e htoken
              cases htoken
              -- The separator is a token, so both bounds still outlast what is ahead of it.
              have hone : 1 <= (c.ahead.takeWhile Token.isComment ++ [c.current]).length := by
                simp
              have he := length_ahead_lt hbound hadvance hone
              have he' := length_ahead_lt hbound' hadvance hone
              apply bind_congr
              intro skipped e' hskipped
              cases hskipped
              rcases c.advance.skipLineBreaks_passage with ⟨read, passage, _⟩
              have hfits := (hc.after hadvance).after passage
              have hs := length_ahead_lt he passage (Nat.zero_le _)
              have hs' := length_ahead_lt he' passage (Nat.zero_le _)
              apply bind_congr
              intro closed e'' hclosed
              cases hclosed
              split
              · rfl
              · apply bind_congr
                intro next f hnext
                have hreply := ReadsIf.elim helement hfits trivial
                rw [hnext] at hreply
                rcases hreply with ⟨read', noted', passage', hleast, _⟩
                have hf := length_ahead_lt (Nat.lt_succ_of_lt hs) passage' hleast
                have hf' := length_ahead_lt (Nat.lt_succ_of_lt hs') passage' hleast
                have hrest := ih bound' (some c.kind) (multiline || c.advance.isAt .lineBreak)
                  (hfits.after passage') hf hf'
                rw [bind_apply, bind_apply, hrest]
          · rfl

end Account

namespace Correspondence

open Linewise.Parser

variable {α β : Type} {K : Correspondence} {lax : Bool} {S T : List Bracket} {k : Bool}
  {p q : Phase} {σ : Frame} {pre : Cursor -> Prop}

/-!
## Single tokens
-/

theorem Tracks.expectAs [hunder : Bracket.Under S T] {kind : Kind} {S' : List Bracket}
    (hend : kind ≠ .endOfInput) (hbreak : kind ≠ .lineBreak)
    (hstep : Bracket.step T kind = some S')
    (hphase : forall c, pre c -> c.kind = kind -> (p.behind c.current).Refines q)
    (description : String) :
    K.Tracks lax S ⟨p, T, k⟩ pre (expectAs kind description) (expectAs kind description)
      (fun _ => ⟨q, S', k⟩) (Token.relabel K.relabelling) := by
  intro c d htwin hpre
  have hat : d.isAt kind = c.isAt kind := (steady_isAt hend hbreak).eq (alike htwin)
  unfold Parser.expectAs expectOr
  rw [hat]
  split
  · rename_i hkind
    have hkind : c.kind = kind := by simpa [Cursor.isAt] using hkind
    have hadvance : K.Tracks lax S ⟨p, T, k⟩ (fun e => pre e ∧ e.kind = kind)
        Parser.advance Parser.advance (fun _ => ⟨q, S', k⟩) (Token.relabel K.relabelling) := by
      apply Tracks.advance
      rintro e ⟨he, hekind⟩
      rw [hekind]
      exact ⟨hend, hbreak, hstep, hphase e he hekind⟩
    exact hadvance c d htwin ⟨hpre, hkind⟩
  · have hstop : K.Tracks lax S ⟨p, T, k⟩ pre (Parser.unexpected description)
        (Parser.unexpected description) (fun _ => ⟨q, S', k⟩) (Token.relabel K.relabelling) :=
      Tracks.unexpected description
    exact hstop c d htwin hpre

theorem Tracks.expectKind [Bracket.Under S T] {kind : Kind} {S' : List Bracket}
    (hend : kind ≠ .endOfInput) (hbreak : kind ≠ .lineBreak) (hname : kind ≠ .lowercaseName)
    (hstep : Bracket.step T kind = some S') (description : String) :
    K.Tracks lax S ⟨p, T, k⟩ pre (Parser.expectAs kind description)
      (Parser.expectAs kind description) (fun _ => ⟨Phase.ofKind kind, S', k⟩)
      (Token.relabel K.relabelling) := by
  apply Tracks.expectAs hend hbreak hstep
  intro c _ hkind
  rw [Phase.behind_of_kind (show c.current.kind = _ from hkind) hname]
  exact Phase.Refines.refl _

theorem Tracks.expectMark [Bracket.Under S T] (mark : Mark)
    (hplain : Bracket.plain (.mark mark) = true) :
    K.Tracks lax S ⟨p, T, k⟩ pre (expect (.mark mark)) (expect (.mark mark))
      (fun _ => ⟨Phase.ofKind (.mark mark), T, k⟩) (Token.relabel K.relabelling) :=
  Tracks.expectKind (by simp) (by simp) (by simp) (Bracket.step_plain hplain T) _

theorem Tracks.expectReserved [Bracket.Under S T] (word : ReservedWord) :
    K.Tracks lax S ⟨p, T, k⟩ pre (expect (.reserved word)) (expect (.reserved word))
      (fun _ => ⟨Phase.ofKind (.reserved word), T, k⟩) (Token.relabel K.relabelling) :=
  Tracks.expectKind (by simp) (by simp) (by simp) (Bracket.step_plain rfl T) _

theorem Tracks.opening [Bracket.Under S T] (mark : Mark) {bracket : Bracket}
    (h : (Kind.mark mark).opened? = some bracket) :
    K.Tracks lax S ⟨p, T, k⟩ pre (expect (.mark mark)) (expect (.mark mark))
      (fun _ => ⟨.joined, bracket :: T, k⟩) (Token.relabel K.relabelling) := by
  have hstep : Bracket.step T (.mark mark) = some (bracket :: T) := by simp [Bracket.step, h]
  apply Tracks.expectAs (by simp) (by simp) hstep
  intro c _ hkind
  rw [Phase.behind_of_kind (show c.current.kind = _ from hkind) (by simp)]
  cases mark <;> first | exact Phase.Refines.refl _ | cases h

theorem Tracks.closing [Bracket.Under S T] (mark : Mark) {bracket : Bracket}
    (h : (Kind.mark mark).closed? = some bracket) :
    K.Tracks lax S ⟨p, bracket :: T, k⟩ pre (expect (.mark mark)) (expect (.mark mark))
      (fun _ => ⟨Phase.ofKind (.mark mark), T, k⟩) (Token.relabel K.relabelling) := by
  have hopened : (Kind.mark mark).opened? = none := by
    cases mark <;> first | rfl | cases h
  have hstep : Bracket.step (bracket :: T) (.mark mark) = some T := by
    simp [Bracket.step, hopened, h]
  exact Tracks.expectKind (by simp) (by simp) (by simp) hstep _

theorem Tracks.advanceKind {kind : Kind} (hend : kind ≠ .endOfInput) (hbreak : kind ≠ .lineBreak)
    (hname : kind ≠ .lowercaseName) {S' : List Bracket} (hstep : Bracket.step T kind = some S')
    (h : forall c, pre c -> c.kind = kind) :
    K.Tracks lax S ⟨p, T, k⟩ pre Parser.advance Parser.advance
      (fun _ => ⟨Phase.ofKind kind, S', k⟩)
      (Token.relabel K.relabelling) := by
  apply Tracks.advance
  intro c hpre
  have hkind : c.current.kind = kind := h c hpre
  rw [h c hpre, Phase.behind_of_kind hkind hname]
  exact ⟨hend, hbreak, hstep, Phase.Refines.refl _⟩

theorem Tracks.advanceMark (mark : Mark) (hplain : Bracket.plain (.mark mark) = true)
    (h : forall c, pre c -> c.isAt (.mark mark) = true) :
    K.Tracks lax S ⟨p, T, k⟩ pre Parser.advance Parser.advance
      (fun _ => ⟨Phase.ofKind (.mark mark), T, k⟩)
      (Token.relabel K.relabelling) := by
  apply Tracks.advanceKind (by simp) (by simp) (by simp) (Bracket.step_plain hplain T)
  intro c hpre
  simpa [Cursor.isAt] using h c hpre

theorem Tracks.advanceReserved (word : ReservedWord)
    (h : forall c, pre c -> c.kind = .reserved word) :
    K.Tracks lax S ⟨p, T, k⟩ pre Parser.advance Parser.advance
      (fun _ => ⟨Phase.ofKind (.reserved word), T, k⟩) (Token.relabel K.relabelling) :=
  Tracks.advanceKind (by simp) (by simp) (by simp) (Bracket.step_plain rfl T) h

/-!
## Names and literals
-/

theorem Tracks.leaf {kind : Kind} {description : String} {τ : Frame}
    (h : K.Tracks lax S σ pre (Parser.expectAs kind description)
      (Parser.expectAs kind description) (fun _ => τ) (Token.relabel K.relabelling)) :
    K.Tracks lax S σ pre (Grammar.leaf kind description) (Grammar.leaf kind description)
      (fun _ => τ) (Lexeme.relabel K.relabelling) :=
  Tracks.bind h (fun _ => Tracks.give rfl)

theorem Tracks.literal [Bracket.Under S T] {kind : Kind} (hend : kind ≠ .endOfInput)
    (hbreak : kind ≠ .lineBreak) (hname : kind ≠ .lowercaseName)
    (hplain : Bracket.plain kind = true) (description : String) :
    K.Tracks lax S ⟨p, T, k⟩ pre (Grammar.leaf kind description)
      (Grammar.leaf kind description) (fun _ => ⟨Phase.ofKind kind, T, k⟩)
      (Lexeme.relabel K.relabelling) :=
  Tracks.leaf (Tracks.expectKind hend hbreak hname (Bracket.step_plain hplain T) description)

theorem Tracks.capitalName [Bracket.Under S T] (description : String) :
    K.Tracks lax S ⟨p, T, k⟩ pre (Grammar.leaf .capitalName description)
      (Grammar.leaf .capitalName description) (fun _ => ⟨.settled, T, k⟩)
      (Lexeme.relabel K.relabelling) :=
  Tracks.literal (by simp) (by simp) (by simp) rfl description

theorem Tracks.number [Bracket.Under S T] :
    K.Tracks lax S ⟨p, T, k⟩ pre Grammar.number Grammar.number (fun _ => ⟨.settled, T, k⟩)
      (Lexeme.relabel K.relabelling) :=
  Tracks.literal (by simp) (by simp) (by simp) rfl _

theorem Tracks.lowercaseName [Bracket.Under S T] (description : String)
    (h : forall c, pre c -> p.Begins c) :
    K.Tracks lax S ⟨p, T, k⟩ pre (Grammar.leaf .lowercaseName description)
      (Grammar.leaf .lowercaseName description) (fun _ => ⟨.settled, T, k⟩)
      (Lexeme.relabel K.relabelling) := by
  apply Tracks.leaf
  apply Tracks.expectAs (by simp) (by simp) (Bracket.step_plain rfl T)
  intro c hpre hkind
  exact Or.inl ((h c hpre).settled hkind)

theorem Tracks.anyName [Bracket.Under S T] (description : String) :
    K.Tracks lax S ⟨p, T, k⟩ pre (Grammar.leaf .lowercaseName description)
      (Grammar.leaf .lowercaseName description) (fun _ => ⟨.any, T, k⟩)
      (Lexeme.relabel K.relabelling) := by
  apply Tracks.leaf
  apply Tracks.expectAs (by simp) (by simp) (Bracket.step_plain rfl T)
  intro c _ _
  exact Or.inr (Or.inl rfl)

theorem Tracks.text [Bracket.Under S T] :
    K.Tracks lax S ⟨p, T, k⟩ pre Grammar.text Grammar.text (fun _ => ⟨.settled, T, k⟩)
      (Lexeme.relabel K.relabelling) := by
  refine Tracks.bind (Tracks.expectKind (by simp) (by simp) (by simp)
    (Bracket.step_plain rfl T) _) ?_
  intro token
  rw [Token.relabel_value]
  cases Grammar.unquoted? token.value with
  | some value => exact Tracks.give rfl
  | none => exact fun _ _ _ _ => .fault _

/-!
## Line breaks
-/

theorem Tracks.skipJoined :
    K.Tracks lax S ⟨.joined, T, k⟩ pre skipLineBreaks skipLineBreaks
      (fun _ => ⟨.joined, T, k⟩) id := by
  intro c d htwin _
  have hsame : d.current = c.current.relabel K.relabelling := by
    rcases K.current htwin with hsame | ⟨_, hphase, _⟩
    · exact hsame
    · exact absurd rfl hphase
  have hat : d.isAt .lineBreak = c.isAt .lineBreak := by simp [Cursor.isAt, kind_eq hsame]
  show K.Replies lax S _ _ (.ok (c.isAt .lineBreak) _) (.ok (d.isAt .lineBreak) _)
  rw [hat]
  exact .ok (K.skip htwin)

theorem Tracks.inside {bracket : Bracket} {first second : Parser α} {τ : α -> Frame}
    {move : α -> α} (h : K.Tracks lax S ⟨q, bracket :: T, k⟩ pre first second τ move) :
    K.Tracks lax S ⟨p, bracket :: T, k⟩ pre first second τ move := by
  have hrefines : Frame.Refines ⟨p, bracket :: T, k⟩ ⟨q, bracket :: T, k⟩ :=
    ⟨rfl, Or.inl (by simp), id⟩
  exact Tracks.from hrefines h

theorem Tracks.skipInside {bracket : Bracket} :
    K.Tracks lax S ⟨p, bracket :: T, k⟩ pre skipLineBreaks skipLineBreaks
      (fun _ => ⟨.joined, bracket :: T, k⟩) id := Tracks.inside Tracks.skipJoined

theorem Tracks.skipWord {next next' : Parser α} {τ : α -> Frame} {move : α -> α}
    (hlax : k = false -> lax = true) (hrefuses : Refuses next)
    (h : K.Tracks lax S ⟨.expecting, S, k⟩ (fun _ => True) next next' τ move) :
    K.Tracks lax S ⟨.worded, S, k⟩ pre (skipLineBreaks >>= fun _ => next)
      (skipLineBreaks >>= fun _ => next') τ move := by
  intro c d htwin _
  show K.Replies lax S τ move (next c.skipLineBreaks) (next' d.skipLineBreaks)
  rcases K.stray htwin with htwin' | ⟨hlossy, hclean, hstack, hend⟩
  · exact h _ _ htwin' trivial
  · rcases hrefuses _ (Or.inl hend) with ⟨g, hg⟩
    rw [hg]
    exact .lost (hlax hclean) hlossy hstack (by simp)

/-!
## Trying and nesting
-/

theorem passage_of_error {least : Nat} {parser : Parser α} {script : α -> List Symbol}
    (h : plainRecovery.ReadsIf least pre parser script) {c e : Cursor} {g : Diagnostic}
    (hc : plainRecovery.Fits c) (hpre : pre c) (herror : parser c = .error g e) :
    exists read noted, c.Passage read noted e := by
  have hreply := h.elim hc hpre
  rw [herror] at hreply
  rcases hreply with ⟨read, noted, passage, _⟩
  exact ⟨read, noted, passage⟩

theorem Tracks.speculate {parser parser' : Parser α} {μ : Frame} {move : α -> α} {least : Nat}
    {script : α -> List Symbol} {pre' : Cursor -> Prop}
    (hreads : plainRecovery.ReadsIf least pre' parser script)
    (hreads' : plainRecovery.ReadsIf least pre' parser' script)
    (hpre' : forall {c d}, K.Twin σ c d -> pre c -> pre' c ∧ pre' d)
    (h : K.Tracks false S σ pre parser parser' (fun _ => μ) move) :
    K.Tracks lax S σ pre (speculate parser) (speculate parser')
      (fun found => if found.isSome then μ else σ) (Option.map move) := by
  intro c d htwin hpre
  have hreply := h c d htwin hpre
  have hback : forall g e, parser c = .error g e -> e.restore c.checkpoint = c := by
    intro g e herror
    rcases passage_of_error hreads (K.fits htwin).1 (hpre' htwin hpre).1 herror with
      ⟨read, noted, passage⟩
    exact Cursor.restore_checkpoint passage
  have hback' : forall g e, parser' d = .error g e -> e.restore d.checkpoint = d := by
    intro g e herror
    rcases passage_of_error hreads' (K.fits htwin).2.1 (hpre' htwin hpre).2 herror with
      ⟨read, noted, passage⟩
    exact Cursor.restore_checkpoint passage
  unfold Parser.speculate
  generalize parser c = reply at hreply hback
  generalize parser' d = reply' at hreply hback'
  cases hreply with
  | ok twin => exact Replies.gave rfl twin
  | error said twin under =>
      simp only [hback _ _ rfl, hback' _ _ rfl]
      exact Replies.gave rfl htwin
  | fault found => exact .fault found
  | lost hlax hlossy hstack => cases hlax

theorem Replies.closeLevel {τ : α -> Frame} {move : α -> α} {reply reply' : Reply α}
    (h : K.Replies lax S τ move reply reply') :
    K.Replies lax S τ move (closeLevel reply) (closeLevel reply') := by
  cases h with
  | @ok value c d twin =>
      have hdepth : d.depth = c.depth := (K.fits twin).2.2
      simp only [Parser.closeLevel, hdepth]
      cases c.depth with
      | zero => exact .fault _
      | succ depth => exact .ok (K.deepen depth twin)
  | @error g h σ c d said twin under =>
      have hdepth : d.depth = c.depth := (K.fits twin).2.2
      simp only [Parser.closeLevel, hdepth]
      cases c.depth with
      | zero => exact .fault _
      | succ depth => exact .error said (K.deepen depth twin) under
  | fault found => exact .fault found
  | lost hlax hlossy hstack hfails =>
      refine .lost hlax hlossy hstack ?_
      intro value e
      cases reply with
      | ok found c => exact absurd rfl (hfails found c)
      | error g c =>
          simp only [Parser.closeLevel]
          split <;> simp
      | fault found => simp [Parser.closeLevel]

theorem Tracks.nested {parser parser' : Parser α} {τ : α -> Frame} {move : α -> α}
    [Bracket.Under S σ.stack] (pre' : Cursor -> Prop)
    (hpre' : forall c, pre c -> pre' { c with depth := c.depth + 1 })
    (h : K.Tracks lax S σ pre' parser parser' τ move) :
    K.Tracks lax S σ pre (nested parser) (nested parser') τ move := by
  intro c d htwin hpre
  have hdepth := (K.fits htwin).2.2
  unfold Parser.nested
  rw [hdepth]
  split
  · exact (h _ _ (K.deepen (c.depth + 1) htwin) (hpre' c hpre)).closeLevel
  · exact Tracks.tooDeep c d htwin hpre

/-!
## Repeating
-/

theorem Tracks.repeatUpTo {more : Cursor -> Bool} {item item' : Parser α} {move : α -> α}
    (hmore : forall {c d}, K.Twin σ c d -> more d = more c)
    (hitem : K.Tracks lax S σ (fun c => more c = true) item item' (fun _ => σ) move)
    (bound : Nat) :
    K.Tracks lax S σ pre (repeatUpTo more item bound) (repeatUpTo more item' bound)
      (fun _ => σ) (List.map move) := by
  induction bound generalizing pre with
  | zero =>
      intro c d htwin _
      unfold Parser.repeatUpTo
      rw [hmore htwin]
      split
      · exact .fault _
      · exact Replies.gave rfl htwin
  | succ bound ih =>
      intro c d htwin _
      unfold Parser.repeatUpTo
      rw [hmore htwin]
      split
      · rename_i hc
        have hround : K.Tracks lax S σ (fun c => more c = true)
            (do let first <- item
                let rest <- Parser.repeatUpTo more item bound
                pure (first :: rest))
            (do let first <- item'
                let rest <- Parser.repeatUpTo more item' bound
                pure (first :: rest)) (fun _ => σ) (List.map move) := by
          apply Tracks.bind hitem
          intro first
          apply Tracks.bind ih
          intro rest
          exact Tracks.give rfl
        exact hround c d htwin hc
      · exact Replies.gave rfl htwin

theorem Tracks.repeatWhile {more : Cursor -> Bool} {item item' : Parser α} {move : α -> α}
    {script : α -> List Symbol}
    (hreads : plainRecovery.ReadsIf 1 (fun c => more c = true) item script)
    (hreads' : plainRecovery.ReadsIf 1 (fun c => more c = true) item' script)
    (hend : forall c : Cursor, c.kind = .endOfInput -> more c = false)
    (hmore : forall {c d}, K.Twin σ c d -> more d = more c)
    (hitem : K.Tracks lax S σ (fun c => more c = true) item item' (fun _ => σ) move) :
    K.Tracks lax S σ pre (repeatWhile more item) (repeatWhile more item') (fun _ => σ)
      (List.map move) := by
  intro c d htwin hpre
  rcases K.fits htwin with ⟨hc, hd, _⟩
  have hreply := Tracks.repeatUpTo hmore hitem (c.ahead.length + d.ahead.length) c d htwin hpre
  unfold Parser.repeatWhile
  rw [Account.repeatUpTo_bound hreads hend _ (c.ahead.length + d.ahead.length) hc
      (Nat.le_refl _) (Nat.le_add_right _ _),
    Account.repeatUpTo_bound hreads' hend _ (c.ahead.length + d.ahead.length) hd
      (Nat.le_refl _) (Nat.le_add_left _ _)]
  exact hreply

/-!
## Lines
-/

theorem Tracks.wholeLine {bracket : Bracket} [Bracket.Under S (bracket :: T)] {terminator : Kind}
    (hend : terminator ≠ .endOfInput) (hbreak : terminator ≠ .lineBreak)
    {item item' : Parser α} {move : α -> α}
    (h : K.Tracks lax S ⟨.joined, bracket :: T, k⟩ pre item item'
      (fun _ => ⟨p, bracket :: T, k⟩) move) :
    K.Tracks lax S ⟨.joined, bracket :: T, k⟩ pre (wholeLine terminator item)
      (wholeLine terminator item') (fun _ => ⟨.joined, bracket :: T, k⟩) move := by
  apply Tracks.bind h
  intro value
  apply Tracks.bind Tracks.skipInside
  intro skipped
  apply Tracks.isAt hend hbreak
  intro ended
  show K.Tracks lax S _ _ (if (skipped || ended) = true then _ else _)
    (if (skipped || ended) = true then _ else _) _ _
  split
  · exact Tracks.give rfl
  · exact Tracks.unexpected _

theorem Tracks.lines {bracket : Bracket} [Bracket.Under S (bracket :: T)] {terminator : Kind}
    (hend : terminator ≠ .endOfInput) (hbreak : terminator ≠ .lineBreak)
    {item item' : Parser α} {move : α -> α} {script : α -> List Symbol}
    (hreads : plainRecovery.Reads 1 item script) (hreads' : plainRecovery.Reads 1 item' script)
    (h : K.Tracks lax S ⟨.joined, bracket :: T, k⟩ (fun _ => True) item item'
      (fun _ => ⟨p, bracket :: T, k⟩) move) :
    K.Tracks lax S ⟨q, bracket :: T, k⟩ pre (lines terminator item) (lines terminator item')
      (fun _ => ⟨.joined, bracket :: T, k⟩) (List.map move) := by
  apply Tracks.bind Tracks.skipInside
  intro _
  apply Tracks.repeatWhile (Account.Reads.wholeLine hreads).readsIf
    (Account.Reads.wholeLine hreads').readsIf
  · intro c hc
    simp [Cursor.hasTokens, Cursor.isAt, hc]
  · intro c d htwin
    have hkind := kind_eq (same_of_sheltered htwin (Or.inr (by simp)))
    simp [Cursor.hasTokens, Cursor.isAt, hkind]
  · exact (Tracks.wholeLine hend hbreak h).given (fun _ _ => trivial)

/-!
## Parentheses
-/

theorem Tracks.kindInside {bracket : Bracket} {next next' : Kind -> Parser α} {τ : α -> Frame}
    {move : α -> α}
    (h : forall kind, K.Tracks lax S ⟨p, bracket :: T, k⟩ (fun c => pre c ∧ c.kind = kind)
      (next kind) (next' kind) τ move) :
    K.Tracks lax S ⟨p, bracket :: T, k⟩ pre (currentKind >>= next) (currentKind >>= next')
      τ move := by
  apply Tracks.kindOr _ h
  intro c d htwin hpre hc hd hwhole
  have hsame := same_of_sheltered htwin (Or.inr (by simp))
  rw [kind_eq hsame]
  exact h c.kind c d htwin ⟨hpre, rfl⟩

def moveElements (move : α -> α) (found : Option Kind × List α) : Option Kind × List α :=
  (found.1, found.2.map move)

theorem step_separator {separators : List Kind}
    (hseparators : forall kind, kind ∈ separators -> kind = .mark .semicolon ∨ kind = .mark .comma)
    {c : Cursor} {kind : Kind} (hkind : c.kind = kind) (hmem : kind ∈ separators) :
    c.kind ≠ .endOfInput ∧ c.kind ≠ .lineBreak ∧ Bracket.step T c.kind = some T ∧
      (p.behind c.current).Refines .expecting := by
  have hbehind : forall found : Mark, c.current.kind = .mark found ->
      p.behind c.current = Phase.ofKind (.mark found) :=
    fun _ h => Phase.behind_of_kind h (by simp) p
  have hcurrent : c.current.kind = kind := hkind
  rw [hkind]
  rcases hseparators kind hmem with rfl | rfl
  · rw [hbehind _ hcurrent]
    exact ⟨by simp, by simp, Bracket.step_plain rfl T, Phase.Refines.refl _⟩
  · rw [hbehind _ hcurrent]
    exact ⟨by simp, by simp, Bracket.step_plain rfl T, Phase.Refines.refl _⟩

theorem Tracks.separated {construct : String} {separators : List Kind}
    (hseparators : forall kind, kind ∈ separators -> kind = .mark .semicolon ∨ kind = .mark .comma)
    [Bracket.Under S T] {element : Parser α} {move : α -> α}
    (helement : forall pre, K.Tracks lax S ⟨.joined, .round :: T, k⟩ pre element element
      (fun _ => ⟨p, .round :: T, k⟩) move)
    (bound : Nat) (separator : Option Kind) (multiline : Bool) :
    K.Tracks lax S ⟨q, .round :: T, k⟩ pre
      (separated construct separators element bound separator multiline)
      (separated construct separators element bound separator multiline)
      (fun _ => ⟨.joined, .round :: T, k⟩) (moveElements move) := by
  induction bound generalizing separator multiline q pre with
  | zero => exact fun _ _ _ _ => .fault _
  | succ bound ih =>
      apply Tracks.kindInside
      intro kind
      split
      · rename_i hmem
        have hmem : kind ∈ separators := by simpa using hmem
        split
        · exact Tracks.mixedSeparators construct
        · apply Tracks.bind (Tracks.advance
            (fun c hpre => step_separator hseparators hpre.2 hmem))
          intro _
          apply Tracks.bind Tracks.skipInside
          intro skipped
          apply Tracks.isAt (by simp) (by simp)
          intro closed
          split
          · exact Tracks.give rfl
          · apply Tracks.bind (helement _)
            intro next
            apply Tracks.bind (ih _ _)
            intro found
            exact Tracks.give rfl
      · split
        · exact Tracks.inside (Tracks.give rfl)
        · exact Tracks.unexpected _

theorem Tracks.enclosedRest {construct : String} {separators : List Kind}
    (hseparators : forall kind, kind ∈ separators -> kind = .mark .semicolon ∨ kind = .mark .comma)
    [Bracket.Under S T] {element : Parser α} {move : α -> α} {script : α -> List Symbol}
    (hreads : plainRecovery.Reads 1 element script)
    (helement : forall pre, K.Tracks lax S ⟨.joined, .round :: T, k⟩ pre element element
      (fun _ => ⟨p, .round :: T, k⟩) move)
    (first : α) (multiline : Bool) :
    K.Tracks lax S ⟨q, .round :: T, k⟩ pre
      (enclosedRest construct separators first multiline element)
      (enclosedRest construct separators (move first) multiline element)
      (fun _ => ⟨.settled, T, k⟩) (Enclosed.relabel move) := by
  have hsilent : forall kind, kind ∈ separators -> kind.isSilent = true := by
    intro kind hmem
    rcases hseparators kind hmem with rfl | rfl
    · rfl
    · rfl
  apply Tracks.bounded
  · intro c bound bound' hc hbound hbound'
    rw [bind_apply, bind_apply,
      Account.separated_bound hreads hsilent bound bound' none multiline hc hbound hbound']
  · intro c bound bound' hc hbound hbound'
    rw [bind_apply, bind_apply,
      Account.separated_bound hreads hsilent bound bound' none multiline hc hbound hbound']
  · intro bound
    apply Tracks.bind (Tracks.separated hseparators helement bound none multiline)
    intro found
    apply Tracks.bind (Tracks.closing .closeParen rfl)
    intro _
    rcases found with ⟨separator, rest⟩
    cases separator with
    | none => exact Tracks.give rfl
    | some separator => exact Tracks.give rfl

theorem Tracks.enclosed {construct : String} {separators : List Kind}
    (hseparators : forall kind, kind ∈ separators -> kind = .mark .semicolon ∨ kind = .mark .comma)
    {element : Parser α} {move : α -> α} {script : α -> List Symbol}
    (hreads : plainRecovery.Reads 1 element script)
    (helement : forall pre, K.Tracks lax S ⟨.joined, .round :: S, k⟩ pre element element
      (fun _ => ⟨q, .round :: S, k⟩) move) :
    K.Tracks lax S ⟨p, S, k⟩ pre (enclosed construct separators element)
      (enclosed construct separators element) (fun _ => ⟨.settled, S, k⟩)
      (Enclosed.relabel move) := by
  apply Tracks.bind (Tracks.opening .openParen rfl)
  intro _
  apply Tracks.isAt (by simp) (by simp)
  intro empty
  split
  · rename_i hempty
    have hstep : Bracket.step (.round :: S) (.mark .closeParen) = some S := rfl
    refine Tracks.bind (Tracks.advanceKind (by simp) (by simp) (by simp) hstep ?_) ?_
    · rintro c ⟨_, hc⟩
      simpa [Cursor.isAt, hempty] using hc
    · intro _
      exact Tracks.give rfl
  · apply Tracks.bind Tracks.skipInside
    intro multiline
    apply Tracks.kindInside
    intro kind
    split
    · rename_i hmem
      have hmem : kind ∈ separators := by simpa using hmem
      apply Tracks.bind (Tracks.advance (fun c hpre => step_separator hseparators hpre.2 hmem))
      intro _
      apply Tracks.bind Tracks.skipInside
      intro _
      apply Tracks.bind (Tracks.closing .closeParen rfl)
      intro _
      exact Tracks.give rfl
    · apply Tracks.bind (helement _)
      intro first
      exact Tracks.enclosedRest hseparators hreads helement first multiline

end Correspondence
end Linewise
