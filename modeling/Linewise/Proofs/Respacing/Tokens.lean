import Linewise.Proofs.Respacing.Measure

/-!
# Tokens written anew

The tokens of a text are written one behind the other, with one blank between
neighbours and nothing in front of a line break.  Reading the new text gives the same
tokens again, in other places.
-/

namespace Linewise

/-!
## The new text
-/

namespace Token

def face (token : Token) : Kind × String := (token.kind, token.value)

def gap (token : Token) : List Char := if token.isLineBreak then [] else [' ']

def respaced : List Token -> List Char
  | [] => []
  | [only] => only.value.toList
  | first :: second :: rest =>
      first.value.toList ++ (second.gap ++ respaced (second :: rest))

def trail : List Token -> List Char
  | [] => []
  | next :: rest => next.gap ++ respaced (next :: rest)

theorem respaced_cons (first : Token) (rest : List Token) :
    respaced (first :: rest) = first.value.toList ++ trail rest := by
  cases rest with
  | nil => rw [respaced, trail, List.append_nil]
  | cons second rest => rw [respaced, trail]

end Token

/-- A source text with its tokens written anew. -/
def respace (source : String) : String :=
  String.ofList (Token.respaced ((tokenize source).1.filter (fun t => t.kind != .endOfInput)))

namespace Lexical

/-!
## One token
-/

theorem commentLength_le_length (cs : List Char) : commentLength cs <= cs.length := by
  match cs with
  | [] => exact Nat.zero_le _
  | [c] => simp [commentLength]
  | c :: d :: cs =>
      by_cases hdashes : c = '-' ∧ d = '-'
      · rcases hdashes with ⟨rfl, rfl⟩
        have hle : commentLength ('-' :: '-' :: (cs ++ [])) <= cs.length + 2 :=
          commentLength_dashes_le.mpr (Or.inr rfl)
        rwa [List.append_nil] at hle
      · rw [commentLength_none hdashes]
        exact Nat.zero_le _

theorem textLength_le_length (cs : List Char) : textLength cs <= cs.length := by
  cases cs with
  | nil => exact Nat.zero_le _
  | cons c cs =>
      by_cases hc : c = '"'
      · subst hc
        have hle : textLength ('"' :: (cs ++ [])) <= cs.length + 1 :=
          textLength_quote_le.mpr (fun hquote => absurd hquote List.not_mem_nil)
        rwa [List.append_nil] at hle
      · rw [textLength_none hc]
        exact Nat.zero_le _

theorem blankLinesLength_le_length (pending : Nat) (cs : List Char) :
    blankLinesLength pending cs <= pending + cs.length := by
  induction cs generalizing pending with
  | nil => exact Nat.zero_le _
  | cons c cs ih =>
      have hnewline := ih 0
      have hblank := ih (pending + 1)
      rw [blankLinesLength, List.length_cons]
      split
      · omega
      · split
        · omega
        · exact Nat.zero_le _

theorem lineBreakLength_le_length (cs : List Char) : lineBreakLength cs <= cs.length := by
  cases cs with
  | nil => exact Nat.zero_le _
  | cons c cs =>
      by_cases hc : c = '\n'
      · have hle := blankLinesLength_le_length 0 cs
        rw [hc, lineBreakLength_newline, List.length_cons]
        omega
      · rw [lineBreakLength_none hc]
        exact Nat.zero_le _

theorem Stable.le_length {measure : List Char -> Nat} {cs : List Char} (h : Stable measure cs) :
    measure cs <= cs.length := by
  have hle := h.within [] trivial
  rwa [List.append_nil] at hle

theorem head?_le_length {signed : Bool} {cs : List Char} {kind : Kind} {width : Nat}
    (h : head? signed cs = some (kind, width)) : width <= cs.length := by
  rcases mem_of_longest h with ⟨hmem, hwidth⟩
  unfold candidates at hmem
  rcases List.mem_append.mp hmem with hclass | hmark
  · simp only [List.mem_cons, List.not_mem_nil, or_false, Prod.mk.injEq] at hclass
    rcases hclass with ⟨_, rfl⟩ | ⟨_, rfl⟩ | ⟨_, rfl⟩ | ⟨_, rfl⟩ | ⟨_, rfl⟩ | ⟨_, rfl⟩ | ⟨_, rfl⟩
    · exact commentLength_le_length cs
    · exact textLength_le_length cs
    · split
      · exact (signedNumberLength_stable cs).le_length
      · exact Nat.zero_le _
    · exact (numberLength_stable cs).le_length
    · exact (capitalNameLength_stable_both cs).1.le_length
    · exact (nameLength_stable cs).le_length
    · exact lineBreakLength_le_length cs
  · rcases List.mem_map.mp hmark with ⟨mark, _, hpair⟩
    cases hpair
    exact (markLength_stable mark cs).le_length

theorem step_width_le (position : Nat) (last : Option Kind) (c : Char) (cs : List Char) :
    (step position last c cs).width <= cs.length + 1 := by
  unfold step
  split
  · rename_i kind width hhead
    exact head?_le_length hhead
  · exact Nat.le_add_left 1 cs.length

theorem step_split (position : Nat) (last : Option Kind) (c : Char) (cs : List Char) :
    exists front rest, cs = front ++ rest ∧
      (step position last c cs).width = front.length + 1 := by
  have hpos := step_width_pos position last c cs
  have hle := step_width_le position last c cs
  exists cs.take ((step position last c cs).width - 1)
  exists cs.drop ((step position last c cs).width - 1)
  constructor
  · exact (List.take_append_drop _ cs).symm
  · rw [List.length_take]
    omega

theorem step_respaced {position : Nat} {last : Option Kind} {c : Char}
    {front rest rest' : List Char}
    (hwidth : (step position last c (front ++ rest)).width = front.length + 1)
    (hrest : Respaced rest rest') (position' : Nat) :
    (step position' last c (front ++ rest')).width = front.length + 1 ∧
      (step position' last c (front ++ rest')).last = (step position last c (front ++ rest)).last ∧
      (Token.whole (step position' last c (front ++ rest')).item).face =
        (Token.whole (step position last c (front ++ rest)).item).face := by
  have hhead : head? (signAllowed last) (c :: (front ++ rest')) =
      head? (signAllowed last) (c :: (front ++ rest)) := by
    rw [← List.cons_append, ← List.cons_append]
    apply head?_respaced _ hrest (List.cons_ne_nil c front)
    unfold step at hwidth
    rw [List.cons_append, List.length_cons]
    cases hfound : head? (signAllowed last) (c :: (front ++ rest)) with
    | none => exact Nat.zero_le _
    | some found =>
        rw [hfound] at hwidth
        exact Nat.le_of_eq hwidth
  unfold step at hwidth ⊢
  rw [hhead]
  cases hfound : head? (signAllowed last) (c :: (front ++ rest)) with
  | none =>
      rw [hfound] at hwidth
      exact ⟨hwidth, rfl, rfl⟩
  | some found =>
      rw [hfound] at hwidth
      have hwidth : found.2 = front.length + 1 := hwidth
      refine ⟨hwidth, rfl, ?_⟩
      simp [Token.whole, Token.face, hwidth]

/-!
## Line breaks
-/

theorem kind_of_newline {signed : Bool} {cs : List Char} {kind : Kind} {width : Nat}
    (h : head? signed ('\n' :: cs) = some (kind, width)) : kind = .lineBreak := by
  rcases mem_of_longest h with ⟨hmem, hwidth⟩
  have hnone : forall {measure : List Char -> Nat}, Stable measure [] ->
      measure ('\n' :: cs) = 0 :=
    fun hstable => Nat.le_zero.mp (hstable.within ('\n' :: cs) (Or.inr rfl))
  unfold candidates at hmem
  rcases List.mem_append.mp hmem with hclass | hmark
  · simp only [hnone (signedNumberLength_stable []), hnone (numberLength_stable []),
      hnone (capitalNameLength_stable_both []).1, hnone (nameLength_stable []), ite_self,
      List.mem_cons, List.not_mem_nil, or_false, Prod.mk.injEq] at hclass
    rcases hclass with ⟨_, rfl⟩ | ⟨_, rfl⟩ | ⟨_, rfl⟩ | ⟨_, rfl⟩ | ⟨_, rfl⟩ | ⟨_, rfl⟩ | ⟨rfl, _⟩
    · simp [commentLength] at hwidth
    · simp [textLength] at hwidth
    · exact absurd hwidth (Nat.lt_irrefl 0)
    · exact absurd hwidth (Nat.lt_irrefl 0)
    · exact absurd hwidth (Nat.lt_irrefl 0)
    · exact absurd hwidth (Nat.lt_irrefl 0)
    · rfl
  · rcases List.mem_map.mp hmark with ⟨mark, _, hpair⟩
    cases hpair
    rw [hnone (markLength_stable mark [])] at hwidth
    exact absurd hwidth (Nat.lt_irrefl 0)

theorem newline_of_kind {signed : Bool} {c : Char} {cs : List Char} {width : Nat}
    (h : head? signed (c :: cs) = some (.lineBreak, width)) : c = '\n' := by
  rcases mem_of_longest h with ⟨hmem, hwidth⟩
  unfold candidates at hmem
  rcases List.mem_append.mp hmem with hclass | hmark
  · simp only [List.mem_cons, List.not_mem_nil, or_false, Prod.mk.injEq, reduceCtorEq,
      false_and, false_or, true_and] at hclass
    rcases hclass with ⟨hword, _⟩ | rfl
    · rcases wordKind_cases (String.ofList ((c :: cs).take (nameLength (c :: cs))))
        with hname | hname
      · rw [hname] at hword
        cases hword
      · rw [← hword] at hname
        cases hname
    · by_cases hc : c = '\n'
      · exact hc
      · rw [lineBreakLength_none hc] at hwidth
        exact absurd hwidth (Nat.lt_irrefl 0)
  · rcases List.mem_map.mp hmark with ⟨mark, _, hpair⟩
    cases hpair

theorem head?_newline (signed : Bool) (cs : List Char) :
    head? signed ('\n' :: cs) ≠ none := by
  intro hnone
  have hle := le_longest (candidates signed ('\n' :: cs))
    (.lineBreak, lineBreakLength ('\n' :: cs)) (by simp [candidates])
  rw [← head?, hnone, lineBreakLength_newline] at hle
  simp only [Option.elim_none] at hle
  omega

theorem isLineBreak_step (position : Nat) (last : Option Kind) (c : Char) (cs : List Char) :
    (Token.whole (step position last c cs).item).isLineBreak = true <-> c = '\n' := by
  unfold step
  cases hhead : head? (signAllowed last) (c :: cs) with
  | none =>
      have hc : c ≠ '\n' := by
        rintro rfl
        exact head?_newline _ cs hhead
      simp [Token.whole, Token.isLineBreak, hc]
  | some found =>
      rcases found with ⟨kind, width⟩
      simp only [Token.whole, Token.isLineBreak, beq_iff_eq]
      constructor
      · rintro rfl
        exact newline_of_kind hhead
      · rintro rfl
        exact kind_of_newline hhead

/-!
## What stands behind an item
-/

theorem step_opens (position : Nat) (last : Option Kind) (c : Char) (cs : List Char) :
    exists front, (Token.whole (step position last c cs).item).value.toList = c :: front := by
  exists cs.take ((step position last c cs).width - 1)
  rw [step_value, ← Nat.sub_add_cancel (step_width_pos position last c cs), List.take_succ_cons,
    Nat.add_sub_cancel]

theorem Run.respaced_trail {position : Nat} {last : Option Kind} {cs : List Char}
    {found : List Item} (run : Run position last cs found) :
    Respaced cs (Token.trail (found.map Token.whole)) := by
  induction run with
  | nil position last =>
      exact ⟨trivial, fun _ => rfl, id, rfl⟩
  | @blank position last c cs found hblank rest ih =>
      have hc : c ≠ '\n' := by
        rintro rfl
        cases hblank
      refine ⟨ih.mute, ?_, ?_, ?_⟩
      · intro hline
        rw [List.idxOf_cons_ne cs hc] at hline
        cases hline
      · intro hquote
        exact List.mem_cons_of_mem c (ih.quotes hquote)
      · rw [List.dropWhile_cons_of_pos hblank]
        exact ih.next
  | @item position last c cs found hblank rest ih =>
      rcases step_opens position last c cs with ⟨front, hfront⟩
      have hbreak := isLineBreak_step position last c cs
      have hquotes : '"' ∈ c :: (front ++ Token.trail (found.map Token.whole)) ->
          '"' ∈ c :: cs := by
        intro hquote
        have hsplit := List.take_append_drop (step position last c cs).width (c :: cs)
        rw [← step_value, hfront] at hsplit
        rw [← List.cons_append] at hquote
        rw [← hsplit]
        rcases List.mem_append.mp hquote with hmem | hmem
        · exact List.mem_append_left _ hmem
        · exact List.mem_append_right _ (ih.quotes hmem)
      have hsolid : forall rest, ((c :: rest).dropWhile isBlank).head? = some c := by
        simp [hblank]
      rw [List.map_cons, Token.trail, Token.respaced_cons, hfront, Token.gap, List.cons_append]
      by_cases hc : c = '\n'
      · rw [if_pos (hbreak.mpr hc), List.nil_append]
        refine ⟨Or.inr hc, ?_, hquotes, ?_⟩
        · intro _
          exact List.idxOf_cons_eq _ hc
        · rw [hsolid, hsolid]
      · rw [if_neg (fun h => hc (hbreak.mp h)), List.singleton_append]
        refine ⟨Or.inl rfl, ?_, ?_, ?_⟩
        · intro hline
          rw [List.idxOf_cons_ne cs hc] at hline
          cases hline
        · intro hquote
          exact hquotes ((List.mem_cons.mp hquote).resolve_left (by decide))
        · rw [List.dropWhile_cons_of_pos rfl, hsolid, hsolid]

/-!
## All tokens
-/

/-- A run over another text that finds the same tokens, the last of them at the end of
the text. -/
structure Rereading (position : Nat) (last : Option Kind) (text : List Char)
    (found found' : List Item) : Prop where
  run : Run position last text found'
  faces : found'.map (fun item => (Token.whole item).face) =
    found.map (fun item => (Token.whole item).face)
  tight : forall item, found'.getLast? = some item ->
    (Token.whole item).span.stop = min (position + Text.byteLength text) Span.maxOffset

theorem Rereading.blank {position : Nat} {last : Option Kind} {text : List Char}
    {found found' : List Item} (h : Rereading (position + 1) last text found found') :
    Rereading position last (' ' :: text) found found' where
  run := Run.blank rfl h.run
  faces := h.faces
  tight := by
    intro item hitem
    rw [h.tight item hitem, Text.byteLength_cons, ← Nat.add_assoc]
    rfl

theorem exists_rereading_trail {last : Option Kind} {found : List Item}
    (h : forall position, exists found', Rereading position last
      (Token.respaced (found.map Token.whole)) found found') (position : Nat) :
    exists found', Rereading position last (Token.trail (found.map Token.whole)) found found' := by
  cases found with
  | nil => exact h position
  | cons item found =>
      rw [List.map_cons, Token.trail, Token.gap]
      split
      · exact h position
      · rcases h (position + 1) with ⟨found', hfound'⟩
        exact ⟨found', hfound'.blank⟩

theorem Rereading.item {position position' : Nat} {last : Option Kind} {c : Char}
    {front rest rest' : List Char} {found found' : List Item} (hblank : isBlank c = false)
    (hwidth : (step position last c (front ++ rest)).width = front.length + 1)
    (hrest : Respaced rest rest')
    (h : Rereading (position' + Text.byteLength (c :: front))
      (step position last c (front ++ rest)).last rest' found found')
    (hend : found = [] -> rest' = []) :
    Rereading position' last (c :: (front ++ rest'))
      ((step position last c (front ++ rest)).item :: found)
      ((step position' last c (front ++ rest')).item :: found') := by
  rcases step_respaced hwidth hrest position' with ⟨hwidth', hlast, hface⟩
  have htake : (c :: (front ++ rest')).take (step position' last c (front ++ rest')).width =
      c :: front := by
    rw [hwidth', List.take_succ_cons, List.take_left]
  have hdrop : (c :: (front ++ rest')).drop (step position' last c (front ++ rest')).width =
      rest' := by
    rw [hwidth', List.drop_succ_cons, List.drop_left]
  constructor
  · apply Run.item hblank
    rw [htake, hdrop, hlast]
    exact h.run
  · rw [List.map_cons, List.map_cons, hface, h.faces]
  · intro item hitem
    cases found' with
    | nil =>
        have hnone : found = [] := by simpa using h.faces.symm
        rw [List.getLast?_singleton, Option.some.injEq] at hitem
        rw [← hitem, step_span, htake, Span.stop_between, hend hnone, List.append_nil]
    | cons next found' =>
        rw [List.getLast?_cons_cons] at hitem
        rw [h.tight item hitem, ← List.cons_append, Text.byteLength_append, Nat.add_assoc]

theorem Run.exists_rereading {position : Nat} {last : Option Kind} {cs : List Char}
    {found : List Item} (run : Run position last cs found) (position' : Nat) :
    exists found', Rereading position' last (Token.respaced (found.map Token.whole))
      found found' := by
  induction run generalizing position' with
  | nil position last => exact ⟨[], Run.nil position' last, rfl, by simp⟩
  | blank hblank rest ih => exact ih position'
  | @item position last c cs found hblank rest ih =>
      rcases step_split position last c cs with ⟨front, behind, rfl, hwidth⟩
      have hvalue : (Token.whole (step position last c (front ++ behind)).item).value.toList =
          c :: front := by
        rw [step_value, hwidth, List.take_succ_cons, List.take_left]
      have hdrop : (c :: (front ++ behind)).drop
          (step position last c (front ++ behind)).width = behind := by
        rw [hwidth, List.drop_succ_cons, List.drop_left]
      have hrest := rest.respaced_trail
      rw [hdrop] at hrest
      rcases exists_rereading_trail ih (position' + Text.byteLength (c :: front)) with
        ⟨found', hfound'⟩
      rw [List.map_cons, Token.respaced_cons, hvalue, List.cons_append]
      refine ⟨_, Rereading.item hblank hwidth hrest hfound' ?_⟩
      intro hnone
      rw [hnone]
      rfl

end Lexical

theorem exists_rereading {source : String}
    (hshort : Text.byteLength source.toList <= Span.maxOffset) :
    exists found found', Lexical.Run 0 none source.toList found ∧
      Lexical.Rereading 0 none (respace source).toList found found' := by
  rcases Lexical.exists_run 0 none source.toList with ⟨found, hrun⟩
  rcases hrun.exists_rereading 0 with ⟨found', hfound'⟩
  have hinside : (tokenize source).1.filter (fun t => t.kind != .endOfInput) =
      found.map Token.whole := by
    rw [hrun.tokenize_whole hshort, List.filter_append, List.filter_eq_self.mpr]
    · simp [Token.endAt]
    · intro t ht
      simpa using (hrun.complaints.2 t ht).1
  refine ⟨found, found', hrun, ?_⟩
  rw [respace, hinside, String.toList_ofList]
  exact hfound'

end Linewise
