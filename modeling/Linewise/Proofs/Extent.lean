import Linewise.Proofs.Lexing

/-!
# Extents

The tokens that are read for a part of a text give it its extent: from where the
first of them that is no comment starts to where the last of them that is neither a
comment nor a line break stops.  In a text whose tokens stand one behind the other
all that is read in between lies inside.
-/

namespace Linewise

namespace Span

def Contains (outer inner : Span) : Prop :=
  outer.start <= inner.start ∧ inner.stop <= outer.stop

instance (outer inner : Span) : Decidable (outer.Contains inner) :=
  inferInstanceAs (Decidable (_ ∧ _))

end Span

namespace Token

/-- Every token takes up some of the text, and stands behind those in front of it. -/
structure Ordered (tokens : List Token) : Prop where
  before : tokens.Pairwise Before
  nonempty : forall t, t ∈ tokens -> t.span.start < t.span.stop

namespace Ordered

variable {first second tokens : List Token}

theorem left (h : Ordered (first ++ second)) : Ordered first where
  before := (List.pairwise_append.mp h.before).1
  nonempty := fun t ht => h.nonempty t (List.mem_append_left second ht)

theorem right (h : Ordered (first ++ second)) : Ordered second where
  before := (List.pairwise_append.mp h.before).2.1
  nonempty := fun t ht => h.nonempty t (List.mem_append_right first ht)

theorem across (h : Ordered (first ++ second)) {t t' : Token} (ht : t ∈ first)
    (ht' : t' ∈ second) : t.span.stop <= t'.span.start :=
  ((List.pairwise_append.mp h.before).2.2 t ht t' ht').behind

/-- Only the token behind the text may be empty. -/
theorem ofText {last : Token} (h : (tokens ++ [last]).Pairwise Before) : Ordered tokens where
  before := (List.pairwise_append.mp h).1
  nonempty := fun t ht => ((List.pairwise_append.mp h).2.2 t ht last (by simp)).nonempty

end Ordered
end Token

namespace Cursor

/-!
## The span behind tokens
-/

theorem spanBehind_mem (previous : Span) (tokens : List Token) :
    spanBehind previous tokens = previous ∨
      exists t, t ∈ tokens ∧ spanBehind previous tokens = t.span := by
  induction tokens generalizing previous with
  | nil => exact Or.inl rfl
  | cons token rest ih =>
      unfold spanBehind
      cases htrivia : isTrivia token with
      | true =>
          rcases ih previous with hsame | ⟨t, ht, hspan⟩
          · exact Or.inl hsame
          · exact Or.inr ⟨t, List.mem_cons_of_mem token ht, hspan⟩
      | false =>
          rcases ih token.span with hsame | ⟨t, ht, hspan⟩
          · exact Or.inr ⟨token, List.mem_cons_self, hsame⟩
          · exact Or.inr ⟨t, List.mem_cons_of_mem token ht, hspan⟩

theorem stop_le_spanBehind {tokens : List Token} (hbefore : tokens.Pairwise Token.Before)
    (hforward : forall t, t ∈ tokens -> t.span.start <= t.span.stop) (previous : Span)
    {t : Token} (ht : t ∈ tokens) (htrivia : isTrivia t = false) :
    t.span.stop <= (spanBehind previous tokens).stop := by
  induction tokens generalizing previous with
  | nil => cases ht
  | cons token rest ih =>
      rcases List.pairwise_cons.mp hbefore with ⟨hfirst, hrest⟩
      have hforward' : forall t, t ∈ rest -> t.span.start <= t.span.stop :=
        fun t ht => hforward t (List.mem_cons_of_mem token ht)
      unfold spanBehind
      rcases List.mem_cons.mp ht with hself | hmem
      · rw [hself] at htrivia ⊢
        rw [if_neg (by simp [htrivia])]
        rcases spanBehind_mem token.span rest with hsame | ⟨later, hlater, hspan⟩
        · exact Nat.le_of_eq (by rw [hsame])
        · rw [hspan]
          have hbehind := (hfirst later hlater).behind
          have hlaterForward := hforward' later hlater
          omega
      · exact ih hrest hforward' _ hmem

theorem exists_spanBehind (previous : Span) {tokens : List Token}
    (h : exists t, t ∈ tokens ∧ isTrivia t = false) :
    exists final, final ∈ tokens ∧ isTrivia final = false ∧
      spanBehind previous tokens = final.span := by
  induction tokens generalizing previous with
  | nil =>
      rcases h with ⟨t, ht, _⟩
      cases ht
  | cons token rest ih =>
      by_cases hrest : exists t, t ∈ rest ∧ isTrivia t = false
      · rcases ih _ hrest with ⟨final, hfinal, htrivia, hspan⟩
        exact ⟨final, List.mem_cons_of_mem token hfinal, htrivia, hspan⟩
      · have hall : forall t, t ∈ rest -> isTrivia t = true := by
          intro t ht
          cases htrivia : isTrivia t with
          | true => rfl
          | false => exact absurd ⟨t, ht, htrivia⟩ hrest
        have htoken : isTrivia token = false := by
          rcases h with ⟨t, ht, htrivia⟩
          rcases List.mem_cons.mp ht with hself | hmem
          · rwa [← hself]
          · exact absurd ⟨t, hmem, htrivia⟩ hrest
        refine ⟨token, List.mem_cons_self, htoken, ?_⟩
        rw [spanBehind, if_neg (by simp [htoken]), spanBehind_trivia _ hall]

end Cursor

/-!
## Extents
-/

structure Stands (tokens : List Token) (span : Span) : Prop where
  begins : exists first, first ∈ tokens ∧ first.isComment = false ∧
    span.start = first.span.start
  ends : exists final, final ∈ tokens ∧ Cursor.isTrivia final = false ∧
    span.stop = final.span.stop

structure Extent (tokens : List Token) (span : Span) : Prop extends Stands tokens span where
  start_le : forall t, t ∈ tokens -> t.isComment = false -> span.start <= t.span.start
  le_stop : forall t, t ∈ tokens -> Cursor.isTrivia t = false -> t.span.stop <= span.stop

theorem Cursor.isComment_of_not_isTrivia {t : Token} (h : isTrivia t = false) :
    t.isComment = false := by
  rw [isTrivia, Bool.or_eq_false_iff] at h
  exact h.1

theorem Stands.mono {tokens tokens' : List Token} {span : Span} (h : Stands tokens span)
    (hsub : forall t, t ∈ tokens -> t ∈ tokens') : Stands tokens' span := by
  rcases h.begins with ⟨first, hfirst, hkind, hstart⟩
  rcases h.ends with ⟨final, hfinal, htrivia, hstop⟩
  exact ⟨⟨first, hsub first hfirst, hkind, hstart⟩, ⟨final, hsub final hfinal, htrivia, hstop⟩⟩

namespace Extent

variable {tokens part : List Token} {span inner : Span}

theorem contains_token (h : Extent tokens span) {t : Token} (ht : t ∈ tokens)
    (htrivia : Cursor.isTrivia t = false) : span.Contains t.span :=
  ⟨h.start_le t ht (Cursor.isComment_of_not_isTrivia htrivia), h.le_stop t ht htrivia⟩

theorem contains (h : Extent tokens span) (hinner : Stands tokens inner) :
    span.Contains inner := by
  rcases hinner.begins with ⟨first, hfirst, hkind, hstart⟩
  rcases hinner.ends with ⟨final, hfinal, htrivia, hstop⟩
  rw [Span.Contains, hstart, hstop]
  exact ⟨h.start_le first hfirst hkind, h.le_stop final hfinal htrivia⟩

theorem nonempty (h : Extent tokens span) (hordered : Token.Ordered tokens) :
    span.start < span.stop := by
  rcases h.ends with ⟨final, hfinal, htrivia, hstop⟩
  have hinside := h.contains_token hfinal htrivia
  have hnonempty := hordered.nonempty final hfinal
  rw [Span.Contains] at hinside
  omega

end Extent

/-- From tokens that are not all trivia, the span from the first one that is no comment
is their extent. -/
theorem Cursor.Passage.extent {c d : Cursor} {read : List Token} {noted : List Diagnostic}
    (passage : c.Passage read noted d) (hordered : Token.Ordered read)
    (hsolid : exists t, t ∈ read ∧ isTrivia t = false) :
    (d.spanFrom c.current.span).start = c.current.span.start ∧
      Extent read (d.spanFrom c.current.span) := by
  have hsplit := List.takeWhile_append_dropWhile (p := Token.isComment) (l := read)
  have hcomments : forall t, t ∈ read.takeWhile Token.isComment -> t.isComment = true :=
    fun t ht => List.all_eq_true.mp List.all_takeWhile t ht
  have hsignificant : forall t, t ∈ read -> t.isComment = false ->
      t ∈ read.dropWhile Token.isComment := by
    intro t ht hkind
    rw [← hsplit] at ht
    rcases List.mem_append.mp ht with hcomment | hmem
    · rw [hcomments t hcomment] at hkind
      cases hkind
    · exact hmem
  rcases exists_spanBehind c.previous hsolid with ⟨final, hfinal, htrivia, hspan⟩
  have hfinal' := hsignificant final hfinal (isComment_of_not_isTrivia htrivia)
  -- Comments in front are read but are no part of the span, which starts at the first token
  -- behind them.
  cases hdrop : read.dropWhile Token.isComment with
  | nil =>
      rw [hdrop] at hfinal'
      cases hfinal'
  | cons first more =>
      have hkind : first.isComment = false := by
        have hhead := List.head?_dropWhile_not Token.isComment read
        simpa [hdrop] using hhead
      have hahead : c.significant = first :: (more ++ d.ahead) := by
        rw [significant, passage.ahead, List.dropWhile_append, hdrop]
        rfl
      have hcurrent : c.current = first := Cursor.current_eq hahead
      have hmem : first ∈ read := by
        rw [← hsplit, hdrop]
        simp
      have hafter := hordered
      rw [← hsplit, hdrop] at hafter
      have hfirst := (List.pairwise_cons.mp hafter.right.before).1
      have hstart : forall t, t ∈ read -> t.isComment = false ->
          first.span.start <= t.span.start := by
        intro t ht hcomment
        have hmore := hsignificant t ht hcomment
        rw [hdrop] at hmore
        rcases List.mem_cons.mp hmore with hself | hlater
        · exact Nat.le_of_eq (by rw [hself])
        · have hbehind := (hfirst t hlater).behind
          have hnonempty := hordered.nonempty first hmem
          omega
      have hstop : first.span.stop <= final.span.stop := by
        rw [hdrop] at hfinal'
        rcases List.mem_cons.mp hfinal' with hself | hlater
        · exact Nat.le_of_eq (by rw [hself])
        · have hbehind := (hfirst final hlater).behind
          have hnonempty := hordered.nonempty final hfinal
          omega
      have hextent : d.spanFrom c.current.span = ⟨first.span.start, final.span.stop⟩ := by
        have hbegin := hstart final hfinal (isComment_of_not_isTrivia htrivia)
        rw [spanFrom, passage.previous, hspan, hcurrent, Span.cover, Nat.min_eq_left hbegin,
          Nat.max_eq_right hstop]
      rw [hextent]
      refine ⟨by rw [hcurrent], ⟨⟨first, hmem, hkind, rfl⟩, ⟨final, hfinal, htrivia, rfl⟩⟩,
        hstart, ?_⟩
      intro t ht htrivia'
      have hle := stop_le_spanBehind hordered.before
        (fun t ht => Nat.le_of_lt (hordered.nonempty t ht)) c.previous ht htrivia'
      rwa [hspan] at hle

end Linewise
