import Linewise.Proofs.Condensing
import Linewise.Proofs.Safety.Indexing
import Linewise.Proofs.Sequence.Layout

/-!
# Sessions of a cursor

A session is a cursor with the checkpoints taken so far.  The same operations can be done
with an index into the list of all tokens, which remembers indices instead of tokens.  Both
go in step, so at every moment of a session the cursor tells what a list of the tokens
that are left, without comments, would tell.
-/

namespace Linewise

/-- What can be done in a session. -/
inductive Operation where
  | advance
  | skipLineBreaks
  | leadingComments
  | expect (kind : Kind)
  | checkpoint
  /-- Goes back to a checkpoint; they are counted in the order they were taken in. -/
  | restore (index : Nat)
deriving DecidableEq

/-!
## Sessions
-/

structure Session where
  cursor : Cursor
  saved : List Cursor.Checkpoint

namespace Session

def start (tokens : List Token) : Session := { cursor := Cursor.ofTokens tokens, saved := [] }

def behind {α : Type} (parser : Parser α) (s : Session) : Option Session :=
  (parser s.cursor).cursor?.map (fun cursor => { s with cursor := cursor })

def perform (s : Session) : Operation -> Option Session
  | .advance => s.behind Parser.advance
  | .skipLineBreaks => s.behind Parser.skipLineBreaks
  | .leadingComments => s.behind Parser.leadingComments
  | .expect kind => s.behind (Parser.expect kind)
  | .checkpoint => some { s with saved := s.saved ++ [s.cursor.checkpoint] }
  | .restore index =>
      s.saved[index]?.map (fun checkpoint => { s with cursor := s.cursor.restore checkpoint })

def performAll (s : Session) (operations : List Operation) : Option Session :=
  operations.foldlM perform s

end Session

/-!
## Sessions of an index
-/

namespace Indexed

/-- The index of the next token, the span to remember, and both for every checkpoint. -/
structure Session where
  index : Nat
  previous : Span
  saved : List (Nat × Span)
deriving DecidableEq

namespace Session

def start : Session := { index := 0, previous := default, saved := [] }

variable {tokens : List Token} {s s' : Session}

def advance? (tokens : List Token) (s : Session) : Option Session :=
  match current? tokens s.index, Indexed.advance? tokens s.index with
  | some token, some behind =>
      if token.kind = .endOfInput then
        some { s with index := behind }
      else
        some { s with index := behind, previous := Cursor.spanAfter s.previous token }
  | _, _ => none

theorem significant?_bounds {index found : Nat} (h : significant? tokens index = some found) :
    index <= found ∧ found < tokens.length := by
  fun_induction significant? tokens index with
  | case1 => cases h
  | case2 index token hget hcomment ih =>
      have hfound := ih h
      omega
  | case3 index token hget hcomment =>
      cases h
      exact ⟨Nat.le_refl _, (List.getElem?_eq_some_iff.mp hget).1⟩

theorem lt_of_advance? {token : Token} (hcurrent : current? tokens s.index = some token)
    (hbreak : token.isLineBreak = true) (h : advance? tokens s = some s') :
    s.index < s'.index ∧ s.index < tokens.length := by
  have hend : token.kind ≠ .endOfInput := by
    intro hkind
    simp [Token.isLineBreak, hkind] at hbreak
  cases hfound : significant? tokens s.index with
  | none => simp [current?, hfound] at hcurrent
  | some found =>
      have hbounds := significant?_bounds hfound
      have hget : tokens[found]? = some token := by simpa [current?, hfound] using hcurrent
      have hnext : s'.index = found + 1 := by
        simp only [advance?, hcurrent, Indexed.advance?, hfound, hget, hend, if_false,
          Option.some.injEq] at h
        rw [← h]
      omega

def skipLineBreaks? (tokens : List Token) (s : Session) : Option Session :=
  match _hcurrent : current? tokens s.index with
  | none => none
  | some token =>
      if _hbreak : token.isLineBreak = true then
        match _hnext : advance? tokens s with
        | none => none
        | some next => skipLineBreaks? tokens next
      else
        some s
termination_by tokens.length - s.index
decreasing_by
  have hlt := lt_of_advance? _hcurrent _hbreak _hnext
  omega

def perform? (tokens : List Token) (s : Session) : Operation -> Option Session
  | .advance => s.advance? tokens
  | .skipLineBreaks => s.skipLineBreaks? tokens
  | .leadingComments =>
      (leadingComments? tokens s.index).map (fun found => { s with index := found.2 })
  | .expect kind =>
      match current? tokens s.index with
      | none => none
      | some token => if token.kind = kind then s.advance? tokens else some s
  | .checkpoint => some { s with saved := s.saved ++ [(s.index, s.previous)] }
  | .restore index =>
      s.saved[index]?.map (fun place => { s with index := place.1, previous := place.2 })

def performAll? (tokens : List Token) (s : Session) (operations : List Operation) :
    Option Session :=
  operations.foldlM (perform? tokens) s

end Session
end Indexed

/-!
## Both in step
-/

namespace Cursor

theorem skipLineBreaks_of_kind {c : Cursor} (hfinal : c.final.kind = .endOfInput)
    (h : c.kind = .lineBreak) : c.skipLineBreaks = c.advance.skipLineBreaks := by
  have hend : c.kind ≠ .endOfInput := by simp [h]
  rcases significant_of_kind_ne hfinal hend with ⟨rest, hs⟩
  have hbreak : c.current.isLineBreak = true := beq_iff_eq.mpr h
  have hafter := afterLineBreaks?_dropComments c.ahead
  rw [← significant, hs, afterLineBreaks?, isComment_of_significant hs] at hafter
  rw [advance_eq hs hend, skipLineBreaks, ← hafter]
  simp [skipLineBreaks, spanAfter, hbreak]

end Cursor

namespace Session

structure InStep (tokens : List Token) (last : Token) (s : Session) (i : Indexed.Session) :
    Prop where
  stands : s.cursor.StandsAt tokens i.index
  final : s.cursor.final = last
  previous : s.cursor.previous = i.previous
  saved : List.Forall₂ (fun (checkpoint : Cursor.Checkpoint) (place : Nat × Span) =>
    tokens.drop place.1 = checkpoint.ahead ++ [last] ∧ checkpoint.previous = place.2)
    s.saved i.saved

namespace InStep

variable {tokens : List Token} {last : Token} {s s' : Session} {i : Indexed.Session}

theorem advance (h : s.InStep tokens last i) :
    exists i', i.advance? tokens = some i' ∧
      { s with cursor := s.cursor.advance }.InStep tokens last i' := by
  rcases h.stands.advance? with ⟨behind, hbehind, hstands⟩
  have hfinal := (Parser.advance_keeps s.cursor).1.trans h.final
  simp only [Indexed.Session.advance?, h.stands.current?, hbehind]
  by_cases hend : s.cursor.current.kind = .endOfInput
  · rw [if_pos hend]
    refine ⟨_, rfl, hstands, hfinal, ?_, h.saved⟩
    rw [← h.previous]
    unfold Cursor.advance
    split
    · rfl
    · rename_i token rest hs
      rw [Cursor.current_eq hs] at hend
      rw [if_pos hend]
  · rw [if_neg hend]
    rcases Cursor.significant_of_kind_ne h.stands.final hend with ⟨rest, hs⟩
    refine ⟨_, rfl, hstands, hfinal, ?_, h.saved⟩
    rw [← h.previous, Cursor.advance_eq hs hend]

theorem skipLineBreaks (h : s.InStep tokens last i) :
    exists i', i.skipLineBreaks? tokens = some i' ∧
      { s with cursor := s.cursor.skipLineBreaks }.InStep tokens last i' := by
  fun_induction Indexed.Session.skipLineBreaks? tokens i generalizing s with
  | case1 i hnone =>
      rw [h.stands.current?] at hnone
      cases hnone
  | case2 i token hcurrent hbreak hnone =>
      rcases h.advance with ⟨i', hi', _⟩
      rw [hi'] at hnone
      cases hnone
  | case3 i token hcurrent hbreak next hnext ih =>
      rcases h.advance with ⟨i', hi', hadvance⟩
      rw [hnext, Option.some.injEq] at hi'
      subst hi'
      rw [h.stands.current?, Option.some.injEq] at hcurrent
      subst hcurrent
      rw [Cursor.skipLineBreaks_of_kind h.stands.final (beq_iff_eq.mp hbreak)]
      exact ih hadvance
  | case4 i token hcurrent hbreak =>
      rw [h.stands.current?, Option.some.injEq] at hcurrent
      subst hcurrent
      have hkind : s.cursor.kind ≠ .lineBreak :=
        fun hkind => hbreak (beq_iff_eq.mpr hkind)
      rw [Cursor.skipLineBreaks_of_ne hkind]
      exact ⟨i, rfl, h⟩

theorem perform (h : s.InStep tokens last i) {operation : Operation}
    (hperform : s.perform operation = some s') :
    exists i', i.perform? tokens operation = some i' ∧ s'.InStep tokens last i' := by
  cases operation with
  | advance =>
      cases hperform
      exact h.advance
  | skipLineBreaks =>
      cases hperform
      exact h.skipLineBreaks
  | leadingComments =>
      cases hperform
      rcases h.stands.leadingComments? with ⟨behind, hbehind, hstands⟩
      exact ⟨{ i with index := behind }, by simp [Indexed.Session.perform?, hbehind], hstands,
        h.final, h.previous, h.saved⟩
  | expect kind =>
      simp only [Session.perform, behind, Parser.expect, Parser.expectAs,
        Parser.expectOr] at hperform
      rw [Indexed.Session.perform?, h.stands.current?]
      by_cases hkind : s.cursor.current.kind = kind
      · rw [if_pos (by simpa [Cursor.isAt, Cursor.kind] using hkind)] at hperform
        cases hperform
        simp only [if_pos hkind]
        exact h.advance
      · rw [if_neg (by simpa [Cursor.isAt, Cursor.kind] using hkind)] at hperform
        cases hperform
        simp only [if_neg hkind]
        exact ⟨i, rfl, h⟩
  | checkpoint =>
      cases hperform
      refine ⟨_, rfl, h.stands, h.final, h.previous, ?_⟩
      apply List.rel_append h.saved
      exact List.Forall₂.cons ⟨h.final ▸ h.stands.drop, h.previous⟩ List.Forall₂.nil
  | restore index =>
      rcases Option.map_eq_some_iff.mp hperform with ⟨checkpoint, hcheckpoint, rfl⟩
      rcases List.getElem?_eq_some_iff.mp hcheckpoint with ⟨hindex, hget⟩
      rcases List.forall₂_iff_get.mp h.saved with ⟨hlength, hplaces⟩
      have hplace := hplaces index hindex (hlength ▸ hindex)
      rw [List.get_eq_getElem, List.get_eq_getElem, hget] at hplace
      have hperform? : i.perform? tokens (.restore index) =
          some ⟨i.saved[index].1, i.saved[index].2, i.saved⟩ := by
        rw [Indexed.Session.perform?, List.getElem?_eq_getElem (hlength ▸ hindex)]
        rfl
      refine ⟨_, hperform?, ⟨?_, h.stands.final⟩, h.final, hplace.2, h.saved⟩
      rw [← h.final] at hplace
      exact hplace.1

theorem performAll (h : s.InStep tokens last i) {operations : List Operation}
    (hperform : s.performAll operations = some s') :
    exists i', i.performAll? tokens operations = some i' ∧ s'.InStep tokens last i' := by
  induction operations generalizing s i with
  | nil =>
      cases hperform
      exact ⟨i, rfl, h⟩
  | cons operation rest ih =>
      rw [Session.performAll, List.foldlM_cons] at hperform
      rcases Option.bind_eq_some_iff.mp hperform with ⟨t, ht, hrest⟩
      rcases h.perform ht with ⟨j, hj, hstep⟩
      rcases ih hstep hrest with ⟨i', hi', hbehind⟩
      refine ⟨i', ?_, hbehind⟩
      rw [Indexed.Session.performAll?, List.foldlM_cons, hj]
      exact hi'

theorem start {body : List Token} (hlast : last.kind = .endOfInput) :
    (Session.start (body ++ [last])).InStep (body ++ [last]) last Indexed.Session.start where
  stands := Cursor.standsAt_ofTokens hlast
  final := Cursor.final_ofTokens_append hlast
  previous := by simp [Session.start, Cursor.ofTokens, hlast, Indexed.Session.start]
  saved := List.Forall₂.nil

end InStep

/-!
## Checkpoints
-/

variable {s s' : Session}

theorem saved_behind {α : Type} {parser : Parser α} (h : s.behind parser = some s') :
    s'.saved = s.saved := by
  rcases Option.map_eq_some_iff.mp h with ⟨cursor, _, rfl⟩
  rfl

theorem saved_perform {operation : Operation} (h : s.perform operation = some s') :
    s.saved <+: s'.saved := by
  cases operation with
  | checkpoint =>
      cases h
      exact List.prefix_append _ _
  | restore index =>
      rcases Option.map_eq_some_iff.mp h with ⟨checkpoint, _, rfl⟩
      exact List.prefix_rfl
  | advance => exact saved_behind h ▸ List.prefix_rfl
  | skipLineBreaks => exact saved_behind h ▸ List.prefix_rfl
  | leadingComments => exact saved_behind h ▸ List.prefix_rfl
  | expect kind => exact saved_behind h ▸ List.prefix_rfl

theorem saved_performAll {operations : List Operation} (h : s.performAll operations = some s') :
    s.saved <+: s'.saved := by
  induction operations generalizing s with
  | nil =>
      cases h
      exact List.prefix_rfl
  | cons operation rest ih =>
      rw [performAll, List.foldlM_cons] at h
      rcases Option.bind_eq_some_iff.mp h with ⟨t, ht, hrest⟩
      exact (saved_perform ht).trans (ih hrest)

theorem exists_checkpoint {before between : List Operation}
    (h : s.performAll (before ++ .checkpoint :: between) = some s') :
    exists m, s.performAll before = some m ∧
      s'.saved[m.saved.length]? = some m.cursor.checkpoint := by
  rw [performAll, List.foldlM_append] at h
  rcases Option.bind_eq_some_iff.mp h with ⟨m, hm, hrest⟩
  rw [List.foldlM_cons] at hrest
  rcases Option.bind_eq_some_iff.mp hrest with ⟨t, ht, hbetween⟩
  cases ht
  refine ⟨m, hm, ?_⟩
  rcases saved_performAll hbetween with ⟨more, hmore⟩
  rw [← hmore]
  simp

end Session

/-!
## What a session sees
-/

/-- The cursor is one on a plain list: the tokens behind the index that are no comments.
The list is not empty, as it ends with the token behind the text. -/
structure Cursor.Refines (tokens : List Token) (last : Token) (index : Nat) (c : Cursor) :
    Prop where
  ahead : c.tokensAhead = (tokens.drop index).filter (fun token => !token.isComment)
  ends : c.tokensAhead.getLast? = some last
  current : c.tokensAhead.head? = some c.current
  peek : c.peek = (c.tokensAhead[1]?).getD last
  advance : exists d, Parser.advance c = .ok c.current d ∧
    d.tokensAhead =
      if c.current.kind = .endOfInput then c.tokensAhead else c.tokensAhead.tail

namespace Cursor

theorem peek_eq_getElem? (c : Cursor) : c.peek = (c.tokensAhead[1]?).getD c.final := by
  cases hs : c.significant with
  | nil =>
      rw [tokensAhead_eq, peek, hs]
      rfl
  | cons token rest =>
      have hnext := head?_tokensAhead { c with ahead := rest }
      rw [List.head?_eq_getElem?] at hnext
      rw [tokensAhead_of_significant hs, List.getElem?_cons_succ, hnext, peek, hs]
      rfl

theorem tokensAhead_advance {c : Cursor} (hfinal : c.final.kind = .endOfInput) :
    c.advance.tokensAhead =
      if c.current.kind = .endOfInput then c.tokensAhead else c.tokensAhead.tail := by
  by_cases hend : c.current.kind = .endOfInput
  · rw [if_pos hend, advance]
    cases hs : c.significant with
    | nil => rw [tokensAhead_eq c, hs]; rfl
    | cons token rest =>
        rw [current_eq hs] at hend
        simp only [hend, if_true]
        rw [tokensAhead_eq c, hs]
        rfl
  · rw [if_neg hend, tokensAhead_cons hfinal hend, List.tail_cons]

theorem StandsAt.refines {tokens : List Token} {index : Nat} {c : Cursor}
    (h : c.StandsAt tokens index) : c.Refines tokens c.final index where
  ahead := by
    rw [h.drop, List.filter_append, tokensAhead]
    simp [h.isComment_final]
  ends := by rw [tokensAhead, List.getLast?_concat]
  current := c.head?_tokensAhead
  peek := c.peek_eq_getElem?
  advance := ⟨c.advance, rfl, tokensAhead_advance h.final⟩

end Cursor

/-- Cursors are plain lists.  Whatever is done in a session over tokens that end with the
token behind the text, an index into the tokens goes the same way, without ever leaving
them.  At the end of the session everything the cursor tells is told by the list of the
tokens from that index on that are no comments, and going back to any checkpoint of the
session brings back the list and the span of the moment it was taken in. -/
theorem session_refines (body : List Token) (last : Token) (hlast : last.kind = .endOfInput)
    (operations : List Operation) (s : Session)
    (h : (Session.start (body ++ [last])).performAll operations = some s) :
    exists i, Indexed.Session.start.performAll? (body ++ [last]) operations = some i ∧
      s.cursor.previous = i.previous ∧
      s.cursor.InRange (body ++ [last]) i.index ∧
      s.cursor.Refines (body ++ [last]) last i.index ∧
      forall before between, operations = before ++ .checkpoint :: between ->
        exists m back, (Session.start (body ++ [last])).performAll before = some m ∧
          s.perform (.restore m.saved.length) = some back ∧
          back.cursor.tokensAhead = m.cursor.tokensAhead ∧
          back.cursor.previous = m.cursor.previous := by
  rcases (Session.InStep.start hlast).performAll h with ⟨i, hi, hstep⟩
  refine ⟨i, hi, hstep.previous, hstep.stands.inRange, hstep.final ▸ hstep.stands.refines, ?_⟩
  rintro before between rfl
  rcases Session.exists_checkpoint h with ⟨m, hm, hsaved⟩
  rcases (Session.InStep.start hlast).performAll hm with ⟨j, _, hstep'⟩
  refine ⟨m, { s with cursor := s.cursor.restore m.cursor.checkpoint }, hm, ?_, ?_, rfl⟩
  · rw [Session.perform, hsaved]
    rfl
  · rw [Cursor.tokensAhead, Cursor.tokensAhead, hstep'.final, ← hstep.final]
    rfl

/-- A session that goes past a comment and a line break, finds no colon there, reads a token
all the same, and goes back to the checkpoint behind the first token. -/
theorem session_refines_restored :
    exists body last operations, last.kind = .endOfInput ∧ .restore 0 ∈ operations ∧
      exists s, (Session.start (body ++ [last])).performAll operations = some s ∧
        s.cursor.previous = ⟨0, 1⟩ ∧
        s.cursor.tokensAhead.map Token.kind = [.lineBreak, .lowercaseName, .endOfInput] ∧
        s.cursor.Refines (body ++ [last]) last 1 := by
  let body : List Token :=
    [⟨⟨"a", ⟨0, 1⟩⟩, .lowercaseName⟩, ⟨⟨"--", ⟨2, 4⟩⟩, .comment⟩, ⟨⟨"\n", ⟨4, 5⟩⟩, .lineBreak⟩,
      ⟨⟨"b", ⟨5, 6⟩⟩, .lowercaseName⟩]
  let last : Token := ⟨⟨"", ⟨6, 6⟩⟩, .endOfInput⟩
  let operations : List Operation :=
    [.advance, .checkpoint, .skipLineBreaks, .leadingComments, .expect (.mark .colon), .advance,
      .restore 0]
  have hsession : exists s, (Session.start (body ++ [last])).performAll operations = some s :=
    ⟨_, rfl⟩
  have hindex : Indexed.Session.start.performAll? (body ++ [last]) operations =
      some ⟨1, ⟨0, 1⟩, [(1, ⟨0, 1⟩)]⟩ := by
    decide +kernel
  rcases hsession with ⟨s, hs⟩
  rcases session_refines body last rfl operations s hs with ⟨i, hi, hprevious, _, hrefines, _⟩
  rw [hindex, Option.some.injEq] at hi
  subst hi
  refine ⟨body, last, operations, rfl, by decide, s, hs, hprevious, ?_, hrefines⟩
  rw [hrefines.ahead]
  rfl

end Linewise
