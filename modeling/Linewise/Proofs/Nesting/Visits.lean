import Linewise.Proofs.Recovery

/-!
# The moments of a run

A reply tells where a parser left the cursor, but not where the cursor was in between.
`Visits` follows a parser through its parts, down to those that look at the current
token, read it or skip trivia, and lists the cursors on the way.  What every one of these
parts preserves holds at every moment of a run.
-/

namespace Linewise

def Reply.cursor? {α : Type} : Reply α -> Option Cursor
  | .ok _ cursor => some cursor
  | .error _ cursor => some cursor
  | .fault _ => none

/-!
## Reading token after token
-/

namespace Cursor

inductive Walk : Cursor -> List Cursor -> Cursor -> Prop where
  | stop (c : Cursor) : Walk c [c] c
  | read {c d : Cursor} {moments : List Cursor} (h : Walk c.advance moments d) :
      Walk c (c :: moments) d

theorem Walk.last_mem {c d : Cursor} {moments : List Cursor} (h : c.Walk moments d) :
    d ∈ moments := by
  induction h with
  | stop c => exact List.mem_singleton_self c
  | read _ ih => exact List.mem_cons_of_mem _ ih

theorem Walk.preserves {I : Cursor -> Prop} (hadvance : forall c, I c -> I c.advance)
    {c d : Cursor} {moments : List Cursor} (h : c.Walk moments d) (hc : I c) :
    forall m, m ∈ moments -> I m := by
  induction h with
  | stop c =>
      intro m hm
      rw [List.mem_singleton] at hm
      exact hm ▸ hc
  | read _ ih =>
      intro m hm
      rcases List.mem_cons.mp hm with rfl | hm
      · exact hc
      · exact ih (hadvance _ hc) m hm

theorem afterLineBreaks?_dropComments (tokens : List Token) :
    afterLineBreaks? (tokens.dropWhile Token.isComment) = afterLineBreaks? tokens := by
  induction tokens with
  | nil => rfl
  | cons token rest ih =>
      by_cases hcomment : token.isComment = true
      · rw [List.dropWhile_cons_of_pos hcomment, ih]
        simp [afterLineBreaks?, hcomment]
      · rw [List.dropWhile_cons_of_neg hcomment]

theorem afterStatement?_dropComments (terminator : Kind) (depth : Nat) (previous : Span)
    (tokens : List Token) :
    afterStatement? terminator depth previous (tokens.dropWhile Token.isComment) =
      afterStatement? terminator depth previous tokens := by
  induction tokens with
  | nil => rfl
  | cons token rest ih =>
      by_cases hcomment : token.isComment = true
      · rw [List.dropWhile_cons_of_pos hcomment, ih]
        simp [afterStatement?, hcomment]
      · rw [List.dropWhile_cons_of_neg hcomment]

theorem advance_of_significant {c : Cursor} {token : Token} {rest : List Token}
    (hs : c.significant = token :: rest) (hkind : token.kind ≠ .endOfInput) :
    c.advance = { c with ahead := rest, previous := spanAfter c.previous token } := by
  simp [advance, hs, hkind]

theorem length_of_significant {c : Cursor} {token : Token} {rest : List Token}
    (hs : c.significant = token :: rest) : rest.length < c.ahead.length := by
  have hle : c.significant.length <= c.ahead.length := (List.dropWhile_suffix _).length_le
  rw [hs] at hle
  exact hle

theorem exists_walk {σ : Type} (loop : σ -> Cursor -> Cursor)
    (hloop : forall s c, loop s c = c ∨
      exists s', loop s c = loop s' c.advance ∧ c.advance.ahead.length < c.ahead.length)
    (s : σ) (c : Cursor) : exists moments, c.Walk moments (loop s c) := by
  generalize hlength : c.ahead.length = length
  induction length using Nat.strongRecOn generalizing c s with
  | ind length ih =>
      rcases hloop s c with hstop | ⟨s', hnext, hshort⟩
      · rw [hstop]
        exact ⟨[c], Walk.stop c⟩
      · rcases ih _ (hlength ▸ hshort) s' c.advance rfl with ⟨moments, hwalk⟩
        rw [hnext]
        exact ⟨c :: moments, hwalk.read⟩

theorem exists_walk_skipLineBreaks (c : Cursor) :
    exists moments, c.Walk moments c.skipLineBreaks := by
  refine exists_walk (fun (_ : Unit) c => c.skipLineBreaks) (fun _ c => ?_) () c
  have hafter := afterLineBreaks?_dropComments c.ahead
  cases hs : c.significant with
  | nil =>
      rw [← significant, hs] at hafter
      left
      rw [skipLineBreaks, ← hafter]
      rfl
  | cons token rest =>
      rw [← significant, hs, afterLineBreaks?, isComment_of_significant hs] at hafter
      by_cases hbreak : token.isLineBreak = true
      · have hkind : token.kind ≠ .endOfInput := by
          intro hkind
          simp [Token.isLineBreak, hkind] at hbreak
        have hnext := advance_of_significant hs hkind
        refine Or.inr ⟨(), ?_, ?_⟩
        · rw [skipLineBreaks, ← hafter, hnext]
          simp [skipLineBreaks, spanAfter, hbreak]
        · rw [hnext]
          exact length_of_significant hs
      · left
        rw [skipLineBreaks, ← hafter]
        simp [hbreak]

theorem kind_of_not_endsStatement {terminator : Kind} {depth : Nat} {token : Token}
    (h : endsStatement terminator depth token = false) : token.kind ≠ .endOfInput := by
  intro hkind
  simp [endsStatement, hkind] at h

/-- Behind the rest of a statement, from inside `depth` brackets. -/
def skipInside (terminator : Kind) (depth : Nat) (c : Cursor) : Cursor :=
  match afterStatement? terminator depth c.previous c.ahead with
  | some (rest, previous) => { c with ahead := rest, previous := previous }
  | none => c

theorem skipInside_step (terminator : Kind) (depth : Nat) (c : Cursor) :
    (skipInside terminator depth c = c ∧ forall token rest, c.significant = token :: rest ->
        endsStatement terminator depth token = true) ∨
      exists token rest, c.significant = token :: rest ∧
        endsStatement terminator depth token = false ∧
        skipInside terminator depth c =
          skipInside terminator (bracketDepth depth token) c.advance := by
  have hafter := afterStatement?_dropComments terminator depth c.previous c.ahead
  cases hs : c.significant with
  | nil =>
      rw [← significant, hs] at hafter
      refine Or.inl ⟨?_, by simp⟩
      rw [skipInside, ← hafter]
      rfl
  | cons token rest =>
      rw [← significant, hs, afterStatement?, isComment_of_significant hs] at hafter
      cases hends : endsStatement terminator depth token with
      | true =>
          refine Or.inl ⟨?_, by simp [hends]⟩
          rw [skipInside, ← hafter]
          simp [hends]
      | false =>
          have hnext := advance_of_significant hs (kind_of_not_endsStatement hends)
          refine Or.inr ⟨token, rest, rfl, hends, ?_⟩
          rw [skipInside, ← hafter, hnext]
          simp only [hends, Bool.false_eq_true, if_false, skipInside]
          cases afterStatement? terminator (bracketDepth depth token)
            (spanAfter c.previous token) rest <;> rfl

theorem exists_walk_skipStatement (terminator : Kind) (c : Cursor) :
    exists moments, c.Walk moments (c.skipStatement terminator) := by
  refine exists_walk (skipInside terminator) (fun depth c => ?_) 0 c
  rcases skipInside_step terminator depth c with ⟨hstop, _⟩ | ⟨token, rest, hs, hends, hnext⟩
  · exact Or.inl hstop
  · refine Or.inr ⟨bracketDepth depth token, hnext, ?_⟩
    rw [advance_of_significant hs (kind_of_not_endsStatement hends)]
    exact length_of_significant hs

end Cursor

/-!
## Runs
-/

namespace Parser

open Grammar (recovering)

/-- In a run of the parser from a cursor, the cursor is at these moments one after
another.  Every form of parsers that the grammar is built from has its rules here, so a
parser is followed by following its parts. -/
inductive Visits : {α : Type} -> Parser α -> Cursor -> List Cursor -> Prop where
  | look {α : Type} (view : Cursor -> α) (c : Cursor) : Visits (Parser.look view) c [c]
  | refuse {α : Type} (diagnostic : Cursor -> Diagnostic) (c : Cursor) :
      Visits (fun cursor => (.error (diagnostic cursor) cursor : Reply α)) c [c]
  | faulty {α : Type} (fault : Fault) (c : Cursor) :
      Visits (Parser.faulty fault : Parser α) c [c]
  | advance (c : Cursor) : Visits Parser.advance c [c, c.advance]
  | skipLineBreaks {c : Cursor} {moments : List Cursor} (h : c.Walk moments c.skipLineBreaks) :
      Visits Parser.skipLineBreaks c moments
  | leadingComments (c : Cursor) : Visits Parser.leadingComments c [c, c.skipTrivia]
  | bind {α β : Type} {first : Parser α} {next : α -> Parser β} {c d : Cursor} {value : α}
      {moments moments' : List Cursor} (hfirst : first c = .ok value d)
      (h : Visits first c moments) (h' : Visits (next value) d moments') :
      Visits (first >>= next) c (moments ++ moments')
  | bindStop {α β : Type} {first : Parser α} {next : α -> Parser β} {c : Cursor}
      {moments : List Cursor} (hfirst : forall value d, first c ≠ .ok value d)
      (h : Visits first c moments) : Visits (first >>= next) c moments
  | choose {α : Type} {yes no : Parser α} {test : Cursor -> Bool} {c : Cursor}
      {moments : List Cursor} (h : Visits (if test c then yes else no) c moments) :
      Visits (fun cursor => if test cursor then yes cursor else no cursor) c (c :: moments)
  | speculate {α : Type} {parser : Parser α} {c : Cursor} {moments : List Cursor}
      (h : Visits parser c moments) :
      Visits (Parser.speculate parser) c
        (moments ++ (Parser.speculate parser c).cursor?.toList)
  | nested {α : Type} {parser : Parser α} {c : Cursor} {moments : List Cursor}
      (hdepth : c.depth < maxDepth)
      (h : Visits parser { c with depth := c.depth + 1 } moments) :
      Visits (Parser.nested parser) c
        (c :: (moments ++ (Parser.nested parser c).cursor?.toList))
  | nestedFull {α : Type} {parser : Parser α} {c : Cursor} (hdepth : maxDepth <= c.depth) :
      Visits (Parser.nested parser) c [c]
  | recovering {terminator : Kind} {parser : Parser Statement} {c : Cursor}
      {moments : List Cursor} (hparser : forall diagnostic d, parser c ≠ .error diagnostic d)
      (h : Visits parser c moments) : Visits (recovering terminator parser) c moments
  | givingUp {terminator : Kind} {parser : Parser Statement} {c d : Cursor}
      {diagnostic : Diagnostic} {moments moments' : List Cursor}
      (hparser : parser c = .error diagnostic d) (h : Visits parser c moments)
      (hwalk : (d.record diagnostic).Walk moments'
        ((d.record diagnostic).skipStatement terminator)) :
      Visits (recovering terminator parser) c (moments ++ moments')

theorem Visits.mem_of_cursor? {α : Type} {parser : Parser α} {c d : Cursor}
    {moments : List Cursor} (h : Visits parser c moments) (hd : (parser c).cursor? = some d) :
    d ∈ moments := by
  induction h generalizing d with
  | look view c =>
      cases hd
      exact List.mem_singleton_self c
  | refuse diagnostic c =>
      cases hd
      exact List.mem_singleton_self c
  | faulty fault c => cases hd
  | advance c =>
      cases hd
      simp
  | skipLineBreaks hwalk =>
      cases hd
      exact hwalk.last_mem
  | leadingComments c =>
      cases hd
      simp
  | bind hfirst _ _ _ ih' =>
      rw [bind_apply, hfirst] at hd
      exact List.mem_append_right _ (ih' hd)
  | @bindStop _ _ first _ c _ hfirst _ ih =>
      rw [bind_apply] at hd
      cases hreply : first c with
      | ok value e => exact absurd hreply (hfirst value e)
      | error diagnostic e =>
          rw [hreply] at hd
          exact ih (hreply ▸ hd)
      | fault fault =>
          rw [hreply] at hd
          cases hd
  | @choose _ yes no test c _ _ ih =>
      apply List.mem_cons_of_mem
      apply ih
      split
      · rename_i htest
        simpa [htest] using hd
      · rename_i htest
        simpa [htest] using hd
  | speculate _ ih => simp [hd]
  | nested hdepth _ ih => simp [hd]
  | nestedFull hdepth =>
      rw [Parser.nested, if_neg (Nat.not_lt.mpr hdepth)] at hd
      cases hd
      simp
  | @recovering terminator parser c _ hparser _ ih =>
      rw [Grammar.recovering] at hd
      cases hreply : parser c with
      | ok value e =>
          rw [hreply] at hd
          exact ih (hreply ▸ hd)
      | error diagnostic e => exact absurd hreply (hparser diagnostic e)
      | fault fault =>
          rw [hreply] at hd
          cases hd
  | givingUp hparser _ hwalk _ =>
      rw [Grammar.recovering, hparser] at hd
      cases hd
      exact List.mem_append_right _ hwalk.last_mem

/-!
## What holds at every moment
-/

structure Stable (I : Cursor -> Prop) : Prop where
  advance : forall c, I c -> I c.advance
  skipTrivia : forall c, I c -> I c.skipTrivia
  record : forall c diagnostic, I c -> I (c.record diagnostic)
  restore : forall c d, I c -> I d -> I (d.restore c.checkpoint)
  opened : forall c, I c -> c.depth < maxDepth -> I { c with depth := c.depth + 1 }
  closed : forall c depth, I c -> c.depth = depth + 1 -> I { c with depth := depth }

theorem cursor?_closeLevel {α : Type} {reply : Reply α} {d : Cursor}
    (h : (closeLevel reply).cursor? = some d) :
    exists e depth, reply.cursor? = some e ∧ e.depth = depth + 1 ∧
      d = { e with depth := depth } := by
  cases reply with
  | ok value e =>
      cases hdepth : e.depth with
      | zero => simp [closeLevel, hdepth, Reply.cursor?] at h
      | succ depth =>
          simp only [closeLevel, hdepth, Reply.cursor?, Option.some.injEq] at h
          exact ⟨e, depth, rfl, hdepth, h.symm⟩
  | error diagnostic e =>
      cases hdepth : e.depth with
      | zero => simp [closeLevel, hdepth, Reply.cursor?] at h
      | succ depth =>
          simp only [closeLevel, hdepth, Reply.cursor?, Option.some.injEq] at h
          exact ⟨e, depth, rfl, hdepth, h.symm⟩
  | fault fault => cases h

theorem cursor?_speculate {α : Type} {parser : Parser α} {c d : Cursor}
    (h : (speculate parser c).cursor? = some d) :
    exists e, (parser c).cursor? = some e ∧ (d = e ∨ d = e.restore c.checkpoint) := by
  unfold speculate at h
  cases hreply : parser c with
  | ok value e =>
      rw [hreply] at h
      exact ⟨e, rfl, Or.inl (Option.some.inj h).symm⟩
  | error diagnostic e =>
      rw [hreply] at h
      exact ⟨e, rfl, Or.inr (Option.some.inj h).symm⟩
  | fault fault =>
      rw [hreply] at h
      cases h

/-- What is kept by every part holds at every moment of a run. -/
theorem Visits.preserves {I : Cursor -> Prop} (hI : Stable I) {α : Type} {parser : Parser α}
    {c : Cursor} {moments : List Cursor} (h : Visits parser c moments) (hc : I c) :
    forall m, m ∈ moments -> I m := by
  induction h with
  | look view c => simpa using hc
  | refuse diagnostic c => simpa using hc
  | faulty fault c => simpa using hc
  | advance c => simpa using ⟨hc, hI.advance c hc⟩
  | skipLineBreaks hwalk => exact hwalk.preserves hI.advance hc
  | leadingComments c => simpa using ⟨hc, hI.skipTrivia c hc⟩
  | bind hfirst h _ ih ih' =>
      have hd := ih hc _ (h.mem_of_cursor? (by rw [hfirst]; rfl))
      intro m hm
      rcases List.mem_append.mp hm with hm | hm
      · exact ih hc m hm
      · exact ih' hd m hm
  | bindStop _ _ ih => exact ih hc
  | choose _ ih =>
      intro m hm
      rcases List.mem_cons.mp hm with rfl | hm
      · exact hc
      · exact ih hc m hm
  | speculate h ih =>
      intro m hm
      rcases List.mem_append.mp hm with hm | hm
      · exact ih hc m hm
      · rcases cursor?_speculate (Option.mem_toList.mp hm) with ⟨e, he, rfl | rfl⟩
        · exact ih hc m (h.mem_of_cursor? he)
        · exact hI.restore _ e hc (ih hc e (h.mem_of_cursor? he))
  | nested hdepth h ih =>
      have hinner := ih (hI.opened _ hc hdepth)
      intro m hm
      rcases List.mem_cons.mp hm with rfl | hm
      · exact hc
      · rcases List.mem_append.mp hm with hm | hm
        · exact hinner m hm
        · have hm := Option.mem_toList.mp hm
          rw [Parser.nested, if_pos hdepth] at hm
          rcases cursor?_closeLevel hm with ⟨e, depth, he, hclosed, rfl⟩
          exact hI.closed e depth (hinner e (h.mem_of_cursor? he)) hclosed
  | nestedFull hdepth => simpa using hc
  | recovering _ _ ih => exact ih hc
  | givingUp hparser h hwalk ih =>
      have hd := ih hc _ (h.mem_of_cursor? (by rw [hparser]; rfl))
      intro m hm
      rcases List.mem_append.mp hm with hm | hm
      · exact ih hc m hm
      · exact hwalk.preserves hI.advance (hI.record _ _ hd) m hm

theorem advance_keeps (c : Cursor) :
    c.advance.final = c.final ∧ c.advance.depth = c.depth := by
  unfold Cursor.advance
  split
  · exact ⟨rfl, rfl⟩
  · split <;> exact ⟨rfl, rfl⟩

theorem stable_depth : Stable (fun c => c.depth <= maxDepth) where
  advance := by
    intro c hc
    rw [(advance_keeps c).2]
    exact hc
  skipTrivia := fun _ hc => hc
  record := fun _ _ hc => hc
  restore := fun _ _ _ hd => hd
  opened := fun _ _ hdepth => hdepth
  closed := by
    intro c depth hc hdepth
    rw [hdepth] at hc
    exact Nat.le_of_succ_le hc

end Parser

end Linewise
