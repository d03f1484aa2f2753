import Linewise.Cursor.Basic

/-!
# Passages of a cursor

A passage leads from one cursor to another over the tokens that were read in
between, and says which diagnostics were noted on the way.  The end of the input
is never among the tokens read.  Everything that the cursor remembers is fixed by
the tokens and the diagnostics, so passages that follow one another compose.
-/

namespace Linewise
namespace Cursor

/-- The span that is remembered behind tokens: that of the last one that is
neither a comment nor a line break. -/
def spanBehind (previous : Span) : List Token -> Span
  | [] => previous
  | token :: rest => spanBehind (if isTrivia token then previous else token.span) rest

theorem spanBehind_append (previous : Span) (first second : List Token) :
    spanBehind previous (first ++ second) = spanBehind (spanBehind previous first) second := by
  induction first generalizing previous with
  | nil => rfl
  | cons token rest ih => exact ih _

theorem spanBehind_trivia (previous : Span) {tokens : List Token}
    (h : forall t, t ∈ tokens -> isTrivia t = true) : spanBehind previous tokens = previous := by
  induction tokens with
  | nil => rfl
  | cons token rest ih =>
      have htoken : isTrivia token = true := h token (by simp)
      have hrest := ih (fun t ht => h t (by simp [ht]))
      simpa [spanBehind, htoken] using hrest

/-- Reading leads from `c` over the tokens `read` to `d`, and `noted` is noted. -/
structure Passage (c : Cursor) (read : List Token) (noted : List Diagnostic) (d : Cursor) :
    Prop where
  ahead : c.ahead = read ++ d.ahead
  final : d.final = c.final
  previous : d.previous = spanBehind c.previous read
  errors : d.errors = c.errors ++ noted
  depth : d.depth = c.depth
  inside : forall t, t ∈ read -> t.kind ≠ .endOfInput

namespace Passage

theorem refl (c : Cursor) : Passage c [] [] c where
  ahead := rfl
  final := rfl
  previous := rfl
  errors := by simp
  depth := rfl
  inside := by simp

theorem trans {c d e : Cursor} {read read' : List Token} {noted noted' : List Diagnostic}
    (first : Passage c read noted d) (second : Passage d read' noted' e) :
    Passage c (read ++ read') (noted ++ noted') e where
  ahead := by rw [first.ahead, second.ahead, List.append_assoc]
  final := by rw [second.final, first.final]
  previous := by rw [second.previous, first.previous, spanBehind_append]
  errors := by rw [second.errors, first.errors, List.append_assoc]
  depth := by rw [second.depth, first.depth]
  inside := by
    intro t ht
    rcases List.mem_append.mp ht with hread | hread'
    · exact first.inside t hread
    · exact second.inside t hread'

theorem ofTrivia {c : Cursor} {read rest : List Token} (hahead : c.ahead = read ++ rest)
    (htrivia : forall t, t ∈ read -> isTrivia t = true) :
    Passage c read [] { c with ahead := rest } where
  ahead := hahead
  final := rfl
  previous := (spanBehind_trivia c.previous htrivia).symm
  errors := by simp
  depth := rfl
  inside := by
    intro t ht hkind
    have h := htrivia t ht
    simp [isTrivia, Token.isComment, Token.isLineBreak, hkind] at h

end Passage

/-!
## The current token
-/

theorem ahead_eq_significant (c : Cursor) :
    c.ahead = c.ahead.takeWhile Token.isComment ++ c.significant :=
  (List.takeWhile_append_dropWhile).symm

theorem isTrivia_of_comments {c : Cursor} {t : Token}
    (h : t ∈ c.ahead.takeWhile Token.isComment) : isTrivia t = true := by
  have hcomment := List.all_eq_true.mp List.all_takeWhile t h
  simp [isTrivia, hcomment]

theorem isTrivia_of_line {d : Cursor} (h : d.kind = .lineBreak) (t : Token)
    (ht : t ∈ d.ahead.takeWhile Token.isComment ++ [d.current]) : isTrivia t = true := by
  rcases List.mem_append.mp ht with hcomment | hcurrent
  · exact isTrivia_of_comments hcomment
  · have hkind : d.current.kind = .lineBreak := h
    rw [List.mem_singleton.mp hcurrent]
    simp [isTrivia, Token.isLineBreak, hkind]

theorem current_eq {c : Cursor} {token : Token} {rest : List Token}
    (h : c.significant = token :: rest) : c.current = token := by
  simp [current, h]

theorem current_eq_final {c : Cursor} (h : c.significant = []) : c.current = c.final := by
  simp [current, h]

theorem Passage.current_eq {c d : Cursor} {noted : List Diagnostic} (h : Passage c [] noted d) :
    d.current = c.current := by
  have hahead : c.ahead = d.ahead := h.ahead
  simp [current, significant, hahead, h.final]

/-- Where the current token is not the end of the input, it is one of those ahead,
behind comments. -/
theorem significant_of_kind_ne {c : Cursor} (hfinal : c.final.kind = .endOfInput)
    (h : c.kind ≠ .endOfInput) : exists rest, c.significant = c.current :: rest := by
  cases hs : c.significant with
  | nil =>
      rw [kind, current_eq_final hs] at h
      exact absurd hfinal h
  | cons token rest => exact ⟨rest, by rw [current_eq hs]⟩

theorem kind_of_ahead_nil {c : Cursor} (hfinal : c.final.kind = .endOfInput)
    (h : c.ahead = []) : c.kind = .endOfInput := by
  simpa [kind, current, significant, h] using hfinal

theorem isComment_of_significant {c : Cursor} {token : Token} {rest : List Token}
    (h : c.significant = token :: rest) : token.isComment = false := by
  have hhead := List.head?_dropWhile_not Token.isComment c.ahead
  rw [significant] at h
  simpa [h] using hhead

theorem mem_ahead_of_significant {c : Cursor} {token : Token} {rest : List Token}
    (h : c.significant = token :: rest) : token ∈ c.ahead := by
  rw [c.ahead_eq_significant, h]
  simp

/-!
## Moving on
-/

theorem advance_eq {c : Cursor} {rest : List Token} (hs : c.significant = c.current :: rest)
    (h : c.kind ≠ .endOfInput) :
    c.advance = { c with ahead := rest, previous := spanAfter c.previous c.current } := by
  unfold advance
  rw [hs]
  exact if_neg h

theorem advance_passage {c : Cursor} (hfinal : c.final.kind = .endOfInput)
    (h : c.kind ≠ .endOfInput) :
    Passage c (c.ahead.takeWhile Token.isComment ++ [c.current]) [] c.advance := by
  rcases significant_of_kind_ne hfinal h with ⟨rest, hs⟩
  have hcomment := isComment_of_significant hs
  rw [advance_eq hs h]
  exact
    { ahead := by
        have hahead := c.ahead_eq_significant
        rw [hs] at hahead
        simpa using hahead
      final := rfl
      previous := by
        rw [spanBehind_append,
          spanBehind_trivia c.previous (fun t ht => isTrivia_of_comments ht)]
        simp [spanBehind, spanAfter, isTrivia, hcomment]
      errors := by simp
      depth := rfl
      inside := by
        intro t ht
        rcases List.mem_append.mp ht with hcomments | htoken
        · intro hkind
          have htrivia := isTrivia_of_comments hcomments
          simp [isTrivia, Token.isComment, Token.isLineBreak, hkind] at htrivia
        · rw [List.mem_singleton.mp htoken]
          exact h }

theorem current_advance {c : Cursor} (hfinal : c.final.kind = .endOfInput)
    (h : c.kind ≠ .endOfInput) : c.advance.current = c.peek := by
  rcases significant_of_kind_ne hfinal h with ⟨rest, hs⟩
  rw [advance_eq hs h, peek, hs]
  rfl

theorem afterLineBreaks?_eq_some {tokens rest : List Token}
    (h : afterLineBreaks? tokens = some rest) :
    exists read, tokens = read ++ rest ∧ forall t, t ∈ read -> isTrivia t = true := by
  induction tokens generalizing rest with
  | nil => cases h
  | cons token tokens ih =>
      unfold afterLineBreaks? at h
      split at h
      · rename_i hcomment
        rcases ih h with ⟨read, hread, htrivia⟩
        exists token :: read
        constructor
        · rw [hread, List.cons_append]
        · simpa [isTrivia, hcomment] using htrivia
      · split at h
        · rename_i hbreak
          injection h with h
          cases hrest : afterLineBreaks? tokens with
          | none =>
              exists [token]
              constructor
              · simp [← h, hrest]
              · simp [isTrivia, hbreak]
          | some behind =>
              rcases ih hrest with ⟨read, hread, htrivia⟩
              rw [hrest, Option.getD_some] at h
              exists token :: read
              constructor
              · rw [hread, h, List.cons_append]
              · simpa [isTrivia, hbreak] using htrivia
        · cases h

theorem skipLineBreaks_passage (c : Cursor) :
    exists read, Passage c read [] c.skipLineBreaks ∧
      forall t, t ∈ read -> isTrivia t = true := by
  unfold skipLineBreaks
  cases hafter : afterLineBreaks? c.ahead with
  | none => exact ⟨[], Passage.refl c, by simp⟩
  | some rest =>
      rcases afterLineBreaks?_eq_some hafter with ⟨read, hread, htrivia⟩
      exact ⟨read, Passage.ofTrivia hread htrivia, htrivia⟩

theorem skipTrivia_passage (c : Cursor) :
    Passage c (c.ahead.takeWhile isTrivia) [] c.skipTrivia :=
  Passage.ofTrivia (List.takeWhile_append_dropWhile).symm
    (fun t ht => List.all_eq_true.mp List.all_takeWhile t ht)

/-- Going back to a checkpoint undoes a passage. -/
theorem restore_checkpoint {c d : Cursor} {read : List Token} {noted : List Diagnostic}
    (h : Passage c read noted d) : d.restore c.checkpoint = c := by
  have herrors : d.errors.take c.errors.length = c.errors := by
    rw [h.errors, List.take_left]
  simp only [restore, checkpoint, herrors, h.final, h.depth]

end Cursor
end Linewise
