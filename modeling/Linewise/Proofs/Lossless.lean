import Linewise.Proofs.Lexing

/-!
# Nothing gets lost between tokens

Reading a text takes it apart from left to right: blanks are dropped, and what is
not blank becomes an item.  So the tokens of a text stand in it one behind the
other, each with the text of its span, and only blanks are left between them.
-/

namespace Linewise

namespace Lexical

/-!
## Runs

A run tells how the characters of a text were taken, without the count of those
that belong to the item before.
-/

/-- From the byte `position` on, and behind a token of the kind `last`, the characters
were taken as blanks and items. -/
inductive Run : Nat -> Option Kind -> List Char -> List Item -> Prop where
  | nil (position : Nat) (last : Option Kind) : Run position last [] []
  | blank {position : Nat} {last : Option Kind} {c : Char} {cs : List Char} {found : List Item}
      (hblank : isBlank c = true) (rest : Run (position + c.utf8Size) last cs found) :
      Run position last (c :: cs) found
  | item {position : Nat} {last : Option Kind} {c : Char} {cs : List Char} {found : List Item}
      (hblank : isBlank c = false)
      (rest : Run
        (position + Text.byteLength ((c :: cs).take (step position last c cs).width))
        (step position last c cs).last
        ((c :: cs).drop (step position last c cs).width) found) :
      Run position last (c :: cs) ((step position last c cs).item :: found)

theorem items_skip (position : Nat) (last : Option Kind) (skip : Nat) (cs : List Char) :
    items position last skip cs =
      items (position + Text.byteLength (cs.take skip)) last 0 (cs.drop skip) := by
  induction cs generalizing position skip with
  | nil => cases skip <;> simp [items]
  | cons c cs ih =>
      cases skip with
      | zero => simp
      | succ skip =>
          rw [items, ih, List.take_succ_cons, List.drop_succ_cons, Text.byteLength_cons,
            Nat.add_assoc]

theorem Run.items_eq {position : Nat} {last : Option Kind} {cs : List Char} {found : List Item}
    (run : Run position last cs found) :
    items position last 0 cs =
      found ++ [.ok (Token.endAt (position + Text.byteLength cs))] := by
  induction run with
  | nil position last => simp [items]
  | @blank position last c cs found hblank rest ih =>
      rw [items, if_pos hblank, ih, Text.byteLength_cons, Nat.add_assoc]
  | @item position last c cs found hblank rest ih =>
      have hwidth := step_width_pos position last c cs
      have hbytes := congrArg Text.byteLength
        (List.take_append_drop (step position last c cs).width (c :: cs))
      have hskip := items_skip position (step position last c cs).last
        (step position last c cs).width (c :: cs)
      rw [Text.byteLength_append] at hbytes
      rw [ih, Nat.add_assoc, hbytes, ← Nat.sub_add_cancel hwidth, items] at hskip
      rw [items, if_neg (by simp [hblank])]
      exact congrArg (List.cons _) hskip

theorem exists_run (position : Nat) (last : Option Kind) (cs : List Char) :
    exists found, Run position last cs found := by
  generalize hlength : cs.length = length
  induction length using Nat.strongRecOn generalizing position last cs with
  | ind length ih =>
      cases cs with
      | nil => exact ⟨[], Run.nil position last⟩
      | cons c cs =>
          rw [List.length_cons] at hlength
          cases hblank : isBlank c with
          | true =>
              rcases ih cs.length (by omega) (position + c.utf8Size) last cs rfl with
                ⟨found, hrun⟩
              exact ⟨found, Run.blank hblank hrun⟩
          | false =>
              have hwidth := step_width_pos position last c cs
              rcases ih ((c :: cs).drop (step position last c cs).width).length
                  (by rw [List.length_drop, List.length_cons]; omega)
                  (position + Text.byteLength ((c :: cs).take (step position last c cs).width))
                  (step position last c cs).last
                  ((c :: cs).drop (step position last c cs).width) rfl with
                ⟨found, hrun⟩
              exact ⟨(step position last c cs).item :: found, Run.item hblank hrun⟩

end Lexical

/-!
## Texts and their tokens
-/

namespace Token

/-- From the byte `start` on the tokens stand in the text one behind the other.  Each
takes up some of it and has the text of its span, and every byte that belongs to none of
them is a blank. -/
structure Cover (text : List Char) (start : Nat) (tokens : List Token) : Prop where
  behind : forall t, t ∈ tokens -> start <= t.span.start
  nonempty : forall t, t ∈ tokens -> t.span.start < t.span.stop
  inside : forall t, t ∈ tokens -> t.span.stop <= Text.byteLength text
  ordered : tokens.Pairwise (fun first second => first.span.stop <= second.span.start)
  texts : forall t, t ∈ tokens ->
    Text.slice? t.span.start t.span.stop text = some t.value.toList
  blanks : forall position, start <= position -> position < Text.byteLength text ->
    (forall t, t ∈ tokens -> ¬ (t.span.start <= position ∧ position < t.span.stop)) ->
      exists c, Text.slice? position (position + 1) text = some [c] ∧ Lexical.isBlank c = true

theorem slice?_between (front inner back : List Char) :
    Text.slice? (Text.byteLength front) (Text.byteLength front + Text.byteLength inner)
      (front ++ (inner ++ back)) = some inner := by
  have hback : ¬ Text.byteLength front + Text.byteLength inner < Text.byteLength front := by
    omega
  simp [Text.slice?, hback, Text.dropBytes?, Text.takeBytes?, Text.splitAtByte?_append]

theorem cover_nil (text : List Char) : Cover text (Text.byteLength text) [] where
  behind := by simp
  nonempty := by simp
  inside := by simp
  ordered := List.Pairwise.nil
  texts := by simp
  blanks := by
    intro position hstart hend
    omega

theorem utf8Size_of_isBlank {c : Char} (h : Lexical.isBlank c = true) : c.utf8Size = 1 := by
  simp only [Lexical.isBlank, Bool.or_eq_true, beq_iff_eq] at h
  rcases h with (rfl | rfl) | rfl
  · decide
  · decide
  · decide

theorem Cover.blank {front back : List Char} {c : Char} {tokens : List Token}
    (hblank : Lexical.isBlank c = true)
    (h : Cover (front ++ c :: back) (Text.byteLength front + c.utf8Size) tokens) :
    Cover (front ++ c :: back) (Text.byteLength front) tokens where
  behind := by
    intro t ht
    have hbehind := h.behind t ht
    omega
  nonempty := h.nonempty
  inside := h.inside
  ordered := h.ordered
  texts := h.texts
  blanks := by
    intro position hstart hend hfree
    have hsize := utf8Size_of_isBlank hblank
    by_cases hposition : position = Text.byteLength front
    · exists c
      constructor
      · have hslice := slice?_between front [c] back
        rw [Text.byteLength_cons, hsize] at hslice
        simpa [hposition] using hslice
      · exact hblank
    · exact h.blanks position (by omega) hend hfree

theorem Cover.cons {front back : List Char} {t : Token} {tokens : List Token}
    (hvalue : t.value.toList ≠ [])
    (hspan : t.span =
      ⟨Text.byteLength front, Text.byteLength front + Text.byteLength t.value.toList⟩)
    (h : Cover (front ++ (t.value.toList ++ back))
      (Text.byteLength front + Text.byteLength t.value.toList) tokens) :
    Cover (front ++ (t.value.toList ++ back)) (Text.byteLength front) (t :: tokens) := by
  have hpos : 0 < Text.byteLength t.value.toList := by
    cases hlist : t.value.toList with
    | nil => exact absurd hlist hvalue
    | cons c cs =>
        have hsize := c.utf8Size_pos
        rw [Text.byteLength_cons]
        omega
  exact
    { behind := by
        intro u hu
        rcases List.mem_cons.mp hu with rfl | hu
        · exact Nat.le_of_eq (congrArg Span.start hspan).symm
        · have hbehind := h.behind u hu
          omega
      nonempty := by
        intro u hu
        rcases List.mem_cons.mp hu with rfl | hu
        · rw [hspan]
          exact Nat.lt_add_of_pos_right hpos
        · exact h.nonempty u hu
      inside := by
        intro u hu
        rcases List.mem_cons.mp hu with rfl | hu
        · rw [hspan, Text.byteLength_append, Text.byteLength_append]
          exact Nat.add_le_add_left (Nat.le_add_right _ _) _
        · exact h.inside u hu
      ordered := by
        apply List.Pairwise.cons
        · intro u hu
          rw [hspan]
          exact h.behind u hu
        · exact h.ordered
      texts := by
        intro u hu
        rcases List.mem_cons.mp hu with rfl | hu
        · rw [hspan]
          exact slice?_between front u.value.toList back
        · exact h.texts u hu
      blanks := by
        intro position hstart hend hfree
        apply h.blanks position _ hend
        · intro u hu
          exact hfree u (List.mem_cons_of_mem t hu)
        · have htoken := hfree t List.mem_cons_self
          rw [hspan] at htoken
          simp only at htoken
          omega }

/-- The diagnostic of a token that stands for a stray character. -/
def complaint (t : Token) : Diagnostic := { cause := .unrecognised t.value, span := t.span }

end Token

/-!
## Stray characters
-/

theorem Text.slice?_inside {front back : List Char} {c : Char} {n : Nat} (hpos : 0 < n)
    (hinside : n < c.utf8Size) :
    slice? (byteLength front) (byteLength front + n) (front ++ c :: back) = none := by
  have hzero : n ≠ 0 := Nat.ne_of_gt hpos
  have hsize : ¬ c.utf8Size <= n := Nat.not_le.mpr hinside
  simp [slice?, dropBytes?, takeBytes?, splitAtByte?_append, splitAtByte?, hzero, hsize]

theorem Text.slice?_self (n : Nat) (cs : List Char) : (slice? n n cs).getD [] = [] := by
  rw [slice?, if_neg (Nat.lt_irrefl n), Nat.sub_self]
  cases dropBytes? n cs with
  | none => rfl
  | some rest => cases rest <;> rfl

/-- A span that is cut down covers no character, whether it is cut inside of the character
or in front of it. -/
theorem Span.text_between {source : String} {front back : List Char} {c : Char}
    (h : source.toList = front ++ c :: back) :
    (between (Text.byteLength front) (Text.byteLength front + c.utf8Size)).text source =
      if Text.byteLength front + c.utf8Size <= maxOffset then String.singleton c else "" := by
  rw [text, h]
  by_cases hshort : Text.byteLength front + c.utf8Size <= maxOffset
  · have hslice := Token.slice?_between front [c] back
    rw [Text.byteLength_cons, Text.byteLength_nil, Nat.add_zero, List.singleton_append] at hslice
    rw [if_pos hshort, between_eq (by omega) hshort, hslice]
    rfl
  · rw [if_neg hshort]
    by_cases hinside : Text.byteLength front < maxOffset
    · have hbetween : between (Text.byteLength front) (Text.byteLength front + c.utf8Size) =
          ⟨Text.byteLength front, Text.byteLength front + (maxOffset - Text.byteLength front)⟩ := by
        rw [between, Nat.min_eq_left (by omega), Nat.min_eq_right (by omega),
          Nat.add_sub_cancel' (by omega)]
      rw [hbetween, Text.slice?_inside (by omega) (by omega)]
      rfl
    · have hbetween : between (Text.byteLength front) (Text.byteLength front + c.utf8Size) =
          ⟨maxOffset, maxOffset⟩ := by
        rw [between, Nat.min_eq_right (by omega), Nat.min_eq_right (by omega)]
      rw [hbetween, Text.slice?_self]

namespace Lexical

/-!
## What a step takes
-/

theorem step_value (position : Nat) (last : Option Kind) (c : Char) (cs : List Char) :
    (Token.whole (step position last c cs).item).value.toList =
      (c :: cs).take (step position last c cs).width := by
  unfold step
  split
  · simp [Token.whole]
  · simp [Token.whole]

/-- What a step takes of a source text keeps its whole text, unless its span is cut. -/
theorem step_whole {source : String} {front cs : List Char} {c : Char} (last : Option Kind)
    (h : source.toList = front ++ c :: cs) :
    Token.ofItem source (step (Text.byteLength front) last c cs).item =
        Token.whole (step (Text.byteLength front) last c cs).item ∨
      (Span.maxOffset < Text.byteLength front + c.utf8Size ∧
        (Token.ofItem source (step (Text.byteLength front) last c cs).item).value = "") := by
  unfold step
  split
  · exact Or.inl rfl
  · have htext := Span.text_between h
    split at htext
    · left
      rw [Token.ofItem, htext]
      rfl
    · right
      exact ⟨by omega, htext⟩

theorem wordKind_cases (word : String) :
    wordKind word = .lowercaseName ∨ (wordKind word).spelling? = some word := by
  unfold wordKind
  cases hreserved : Kind.ofReserved? word with
  | none => exact Or.inl rfl
  | some kind => exact Or.inr (spelling_of_ofReserved? hreserved)

theorem kind_of_head? {signed : Bool} {cs : List Char} {kind : Kind} {width : Nat}
    (h : head? signed cs = some (kind, width)) : kind ≠ .unrecognised := by
  rcases mem_of_longest h with ⟨hmem, _⟩
  intro hkind
  rw [hkind, candidates] at hmem
  rcases List.mem_append.mp hmem with hclass | hmark
  · simp only [List.mem_cons, List.not_mem_nil, or_false, Prod.mk.injEq, reduceCtorEq,
      false_and, false_or] at hclass
    rcases wordKind_cases (String.ofList (cs.take (nameLength cs))) with hword | hword
    · rw [hword] at hclass
      cases hclass.1
    · rw [← hclass.1] at hword
      cases hword
  · rcases List.mem_map.mp hmark with ⟨mark, _, hpair⟩
    cases hpair

/-- An item is no token exactly if it stands for a stray character, and then it is that
one character. -/
theorem step_stray (position : Nat) (last : Option Kind) (c : Char) (cs : List Char) :
    (Diagnostic.ofItem? (step position last c cs).item = none ∧
        (Token.whole (step position last c cs).item).kind ≠ .unrecognised) ∨
      (Diagnostic.ofItem? (step position last c cs).item =
          some (Token.whole (step position last c cs).item).complaint ∧
        (Token.whole (step position last c cs).item).kind = .unrecognised ∧
        (Token.whole (step position last c cs).item).value = String.singleton c) := by
  unfold step
  split
  · rename_i kind width hhead
    exact Or.inl ⟨rfl, kind_of_head? hhead⟩
  · exact Or.inr ⟨rfl, rfl, rfl⟩

/-!
## What a run takes
-/

theorem Run.cover {position : Nat} {last : Option Kind} {cs : List Char} {found : List Item}
    (run : Run position last cs found) (front : List Char)
    (hfront : Text.byteLength front = position)
    (hshort : position + Text.byteLength cs <= Span.maxOffset) :
    Token.Cover (front ++ cs) position (found.map Token.whole) := by
  induction run generalizing front with
  | nil position last =>
      rw [List.append_nil, ← hfront]
      exact Token.cover_nil front
  | @blank position last c cs found hblank rest ih =>
      rw [Text.byteLength_cons, ← Nat.add_assoc] at hshort
      have hcover := ih (front ++ [c]) (by simp [hfront]) hshort
      rw [List.append_assoc, List.singleton_append, ← hfront] at hcover
      rw [← hfront]
      exact Token.Cover.blank hblank hcover
  | @item position last c cs found hblank rest ih =>
      have hsplit := List.take_append_drop (step position last c cs).width (c :: cs)
      have hvalue := step_value position last c cs
      have hspan := step_span position last c cs
      rw [← hvalue] at hsplit hspan ih
      have hbytes := congrArg Text.byteLength hsplit
      rw [Text.byteLength_append] at hbytes
      rw [Span.between_eq (by omega) (by omega)] at hspan
      have hcover := ih
        (front ++ (Token.whole (step position last c cs).item).value.toList)
        (by rw [Text.byteLength_append, hfront]) (by omega)
      rw [List.append_assoc, ← hfront] at hcover
      rw [List.map_cons, ← hsplit, ← hfront]
      apply Token.Cover.cons
      · rw [hfront, hvalue, ← Nat.sub_add_cancel (step_width_pos position last c cs),
          List.take_succ_cons]
        exact List.cons_ne_nil _ _
      · rw [hfront, hspan]
      · rw [hfront] at hcover ⊢
        exact hcover

theorem Run.complaints {position : Nat} {last : Option Kind} {cs : List Char}
    {found : List Item} (run : Run position last cs found) :
    found.filterMap Diagnostic.ofItem? =
        ((found.map Token.whole).filter (fun t => t.kind == .unrecognised)).map
          Token.complaint ∧
      forall t, t ∈ found.map Token.whole ->
        t.kind ≠ .endOfInput ∧
          (t.kind = .unrecognised -> exists c, t.value = String.singleton c) := by
  induction run with
  | nil position last => simp
  | blank hblank rest ih => exact ih
  | @item position last c cs found hblank rest ih =>
      have hinside := (Token.wellFormed_whole (step_regular position last c cs)).inside
      rcases ih with ⟨herrors, htokens⟩
      rcases step_stray position last c cs with ⟨hnone, hkind⟩ | ⟨hsome, hkind, hvalue⟩
      · constructor
        · rw [List.filterMap_cons, hnone, herrors, List.map_cons,
            List.filter_cons_of_neg (by simpa using hkind)]
        · intro t ht
          rcases List.mem_cons.mp ht with rfl | ht
          · exact ⟨hinside, fun h => absurd h hkind⟩
          · exact htokens t ht
      · constructor
        · rw [List.filterMap_cons, hsome, herrors, List.map_cons,
            List.filter_cons_of_pos (by simpa using hkind), List.map_cons]
        · intro t ht
          rcases List.mem_cons.mp ht with rfl | ht
          · exact ⟨hinside, fun _ => ⟨c, hvalue⟩⟩
          · exact htokens t ht

theorem Run.tokenize_eq {source : String} {found : List Item}
    (run : Run 0 none source.toList found) :
    (tokenize source).1 = found.map (Token.ofItem source) ++
        [Token.endAt (Text.byteLength source.toList)] ∧
      (tokenize source).2 =
        ((found.map Token.whole).filter (fun t => t.kind == .unrecognised)).map
          Token.complaint := by
  have hitems := run.items_eq
  rw [Nat.zero_add] at hitems
  rw [← run.complaints.1]
  constructor
  · simp [tokenize, itemsOf, hitems, Token.ofItem]
  · simp [tokenize, itemsOf, hitems, Diagnostic.ofItem?]

theorem Run.map_ofItem {source : String} {position : Nat} {last : Option Kind}
    {cs : List Char} {found : List Item} (run : Run position last cs found)
    (front : List Char) (hsource : source.toList = front ++ cs)
    (hfront : Text.byteLength front = position)
    (hshort : Text.byteLength source.toList <= Span.maxOffset) :
    found.map (Token.ofItem source) = found.map Token.whole := by
  induction run generalizing front with
  | nil position last => rfl
  | @blank position last c cs found hblank rest ih =>
      apply ih (front ++ [c])
      · rw [hsource, List.append_assoc, List.singleton_append]
      · simp [hfront]
  | @item position last c cs found hblank rest ih =>
      have hsplit := List.take_append_drop (step position last c cs).width (c :: cs)
      have hbytes := congrArg Text.byteLength hsource
      rw [Text.byteLength_append, Text.byteLength_cons] at hbytes
      rw [List.map_cons, List.map_cons]
      congr 1
      · subst hfront
        rcases step_whole last hsource with hwhole | ⟨hcut, _⟩
        · exact hwhole
        · omega
      · apply ih (front ++ (c :: cs).take (step position last c cs).width)
        · rw [List.append_assoc, hsplit, hsource]
        · rw [Text.byteLength_append, hfront]

theorem Run.tokenize_whole {source : String} {found : List Item}
    (run : Run 0 none source.toList found)
    (hshort : Text.byteLength source.toList <= Span.maxOffset) :
    (tokenize source).1 =
      found.map Token.whole ++ [Token.endAt (Text.byteLength source.toList)] := by
  rw [run.tokenize_eq.1, run.map_ofItem [] rfl rfl hshort]

end Lexical

/-- Reading a text loses nothing: up to the last, the tokens cover the text but for
blanks, each with the text of its span.  The last one is the only end of input and stands
behind the text.  The diagnostics are the complaints about the stray characters, of which
each has a token of its own. -/
theorem tokenize_lossless (source : String)
    (hshort : Text.byteLength source.toList <= Span.maxOffset) :
    exists tokens last, (tokenize source).1 = tokens ++ [last] ∧
      Token.Cover source.toList 0 tokens ∧
      (forall t, t ∈ tokens -> t.kind ≠ .endOfInput) ∧
      last.kind = .endOfInput ∧
      last.span = ⟨Text.byteLength source.toList, Text.byteLength source.toList⟩ ∧
      (tokenize source).2 =
        (tokens.filter (fun t => t.kind == .unrecognised)).map Token.complaint ∧
      (forall t, t ∈ tokens -> t.kind = .unrecognised ->
        exists c, t.value = String.singleton c) := by
  rcases Lexical.exists_run 0 none source.toList with ⟨found, hrun⟩
  have htokens := hrun.complaints.2
  exists found.map Token.whole, Token.endAt (Text.byteLength source.toList)
  constructor
  · exact hrun.tokenize_whole hshort
  constructor
  · simpa using hrun.cover [] rfl (by simpa using hshort)
  constructor
  · exact fun t ht => (htokens t ht).1
  constructor
  · rfl
  constructor
  · exact Span.between_eq hshort hshort
  constructor
  · exact hrun.tokenize_eq.2
  · exact fun t ht => (htokens t ht).2

/-- Of `é @  1` three tokens cover all but the blanks, and one of them is stray. -/
theorem tokenize_lossless_accent :
    exists tokens last, (tokenize "é @  1").1 = tokens ++ [last] ∧
      Token.Cover "é @  1".toList 0 tokens ∧ last.span = ⟨7, 7⟩ ∧
      tokens.map (fun t => (t.kind, t.value, t.span)) =
        [(.lowercaseName, "é", ⟨0, 2⟩), (.unrecognised, "@", ⟨3, 4⟩), (.number, "1", ⟨6, 7⟩)] ∧
      (tokenize "é @  1").2 = [{ cause := .unrecognised "@", span := ⟨3, 4⟩ }] := by
  have hlength : Text.byteLength "é @  1".toList = 7 := by decide +kernel
  rcases tokenize_lossless "é @  1" (by rw [hlength]; decide) with
    ⟨tokens, last, htokens, hcover, _, _, hspan, _, _⟩
  have hdrop : tokens = (tokenize "é @  1").1.dropLast := by simp [htokens]
  rw [hlength] at hspan
  refine ⟨tokens, last, htokens, hcover, hspan, ?_, ?_⟩
  · rw [hdrop]
    decide +kernel
  · decide +kernel

end Linewise
