import Linewise.Proofs.Origin.Shape
import Linewise.Proofs.Origin.Sign
import Linewise.Proofs.Respacing.Tokens

/-!
# Trivia in normal form

A line break takes all the blank lines behind it, and a comment the rest of its line.  So
behind a line break there is no other, and behind a comment there is a line break or the end
of the text.
-/

namespace Linewise
namespace Lexical

/-!
## The text of a line break
-/

/-- A text of nothing but line feeds and blanks, with a line feed at both ends. -/
structure BlankLines (cs : List Char) : Prop where
  first : cs.head? = some '\n'
  last : cs.getLast? = some '\n'
  blank : forall c, c ∈ cs -> c = '\n' ∨ c = ' ' ∨ c = '\t' ∨ c = '\r'

theorem isBlank_cases {c : Char} (h : isBlank c = true) : c = ' ' ∨ c = '\t' ∨ c = '\r' := by
  simpa [isBlank, or_assoc] using h

theorem blankLinesLength_cases (pending : Nat) (cs : List Char) :
    (blankLinesLength pending cs = 0 ∧ (cs.dropWhile isBlank).head? ≠ some '\n') ∨
      exists lines rest, cs = lines ++ '\n' :: rest ∧
        blankLinesLength pending cs = pending + lines.length + 1 ∧
        (forall c, c ∈ lines -> c = '\n' ∨ isBlank c = true) ∧
        (rest.dropWhile isBlank).head? ≠ some '\n' := by
  induction cs generalizing pending with
  | nil => exact Or.inl ⟨rfl, by simp⟩
  | cons c cs ih =>
      rw [blankLinesLength]
      by_cases hc : c = '\n'
      · right
        subst hc
        rw [if_pos rfl]
        rcases ih 0 with ⟨hnone, hnext⟩ | ⟨lines, rest, rfl, hlength, hlines, hnext⟩
        · exact ⟨[], cs, rfl, by simp [hnone], by simp, hnext⟩
        · refine ⟨'\n' :: lines, rest, rfl, ?_, ?_, hnext⟩
          · rw [hlength, List.length_cons]
            omega
          · intro c hmem
            rcases List.mem_cons.mp hmem with rfl | hmem
            · exact Or.inl rfl
            · exact hlines c hmem
      · rw [if_neg hc]
        cases hblank : isBlank c with
        | true =>
            rw [if_pos rfl, List.dropWhile_cons_of_pos hblank]
            rcases ih (pending + 1) with hnone | ⟨lines, rest, rfl, hlength, hlines, hnext⟩
            · exact Or.inl hnone
            · refine Or.inr ⟨c :: lines, rest, rfl, ?_, ?_, hnext⟩
              · rw [hlength, List.length_cons]
                omega
              · intro d hmem
                rcases List.mem_cons.mp hmem with rfl | hmem
                · exact Or.inr hblank
                · exact hlines d hmem
        | false =>
            rw [dropWhile_blank hblank]
            exact Or.inl ⟨rfl, fun h => hc (Option.some.inj h)⟩

theorem lineBreakLength_split (cs : List Char) :
    exists lines rest, '\n' :: cs = lines ++ rest ∧
      lineBreakLength ('\n' :: cs) = lines.length ∧ BlankLines lines ∧
      (rest.dropWhile isBlank).head? ≠ some '\n' := by
  rw [lineBreakLength_newline]
  rcases blankLinesLength_cases 0 cs with
    ⟨hnone, hnext⟩ | ⟨lines, rest, rfl, hlength, hlines, hnext⟩
  · exact ⟨['\n'], cs, rfl, by simp [hnone], ⟨rfl, rfl, by simp⟩, hnext⟩
  · refine ⟨'\n' :: (lines ++ ['\n']), rest, by simp, ?_, ⟨rfl, ?_, ?_⟩, hnext⟩
    · rw [hlength, List.length_cons, List.length_append, List.length_singleton]
      omega
    · rw [← List.cons_append, List.getLast?_concat]
    · intro c hmem
      simp only [List.mem_cons, List.mem_append, List.not_mem_nil, or_false] at hmem
      rcases hmem with rfl | hmem | rfl
      · exact Or.inl rfl
      · exact (hlines c hmem).imp_right isBlank_cases
      · exact Or.inl rfl

/-!
## Trivia at the head of a text
-/

theorem wordKind_ne {kind : Kind} (hname : kind ≠ .lowercaseName) (h : kind.spelling? = none)
    (word : String) : wordKind word ≠ kind := by
  rintro rfl
  rcases wordKind_cases word with hkind | hkind
  · exact hname hkind
  · rw [h] at hkind
    cases hkind

theorem width_of_trivia {signed : Bool} {cs : List Char} {kind : Kind} {width : Nat}
    (h : head? signed cs = some (kind, width)) :
    (kind = .comment -> width = commentLength cs) ∧
      (kind = .lineBreak -> width = lineBreakLength cs) := by
  rcases mem_of_longest h with ⟨hmem, _⟩
  unfold candidates at hmem
  have hword : forall trivia : Kind, trivia ≠ .lowercaseName -> trivia.spelling? = none ->
      trivia ≠ wordKind (String.ofList (cs.take (nameLength cs))) :=
    fun _ hname hspelling => (wordKind_ne hname hspelling _).symm
  constructor
  · rintro rfl
    simpa [hword .comment (by decide) rfl] using hmem
  · rintro rfl
    simpa [hword .lineBreak (by decide) rfl] using hmem

theorem drop_commentLength {cs : List Char} (h : 0 < commentLength cs) :
    cs.drop (commentLength cs) = [] ∨ (cs.drop (commentLength cs)).head? = some '\n' := by
  match cs with
  | [] => cases h
  | [_] => simp [commentLength] at h
  | c :: d :: cs =>
      by_cases hdashes : c = '-' ∧ d = '-'
      · rcases hdashes with ⟨rfl, rfl⟩
        rw [commentLength_dashes, Nat.add_comm, List.drop_succ_cons, List.drop_succ_cons]
        by_cases hline : '\n' ∈ cs
        · right
          have hlt := List.idxOf_lt_length_of_mem hline
          rw [List.head?_drop, List.getElem?_eq_getElem hlt, List.getElem_idxOf hlt]
        · left
          rw [List.idxOf_eq_length hline, List.drop_length]
      · rw [commentLength_none hdashes] at h
        cases h

end Lexical

/-!
## The tokens of a text
-/

namespace Token

/-- What a token of trivia is like, and what may stand directly behind it. -/
structure Normal (t : Token) (after : List Token) : Prop where
  comment : t.kind = .comment -> '\n' ∉ t.value.toList ∧
    exists next rest, after = next :: rest ∧
      (next.kind = .lineBreak ∨ next.kind = .endOfInput)
  lineBreak : t.kind = .lineBreak -> Lexical.BlankLines t.value.toList ∧
    forall next rest, after = next :: rest -> next.kind ≠ .lineBreak

end Token

namespace Lexical

theorem Run.head?_isLineBreak {position : Nat} {last : Option Kind} {cs : List Char}
    {found : List Item} (run : Run position last cs found) (source : String) :
    (found.map (Token.ofItem source)).head?.map Token.isLineBreak =
      (cs.dropWhile isBlank).head?.map (fun c => c == '\n') := by
  induction run with
  | nil position last => rfl
  | @blank position last c cs found hblank rest ih =>
      rw [ih, List.dropWhile_cons_of_pos hblank]
  | @item position last c cs found hblank rest ih =>
      rw [dropWhile_blank hblank]
      apply congrArg some
      rw [Bool.eq_iff_iff, beq_iff_eq, Token.isLineBreak, Token.kind_ofItem]
      exact isLineBreak_step position last c cs

theorem Run.behind_comment {source : String} {position : Nat} {last : Option Kind}
    {cs : List Char} {found : List Item} (run : Run position last cs found)
    (h : cs = [] ∨ cs.head? = some '\n') (stop : Nat) :
    exists next rest, found.map (Token.ofItem source) ++ [Token.endAt stop] = next :: rest ∧
      (next.kind = .lineBreak ∨ next.kind = .endOfInput) := by
  have hhead := run.head?_isLineBreak source
  cases found with
  | nil => exact ⟨_, _, rfl, Or.inr rfl⟩
  | cons item found =>
      rcases h with rfl | hline
      · cases hhead
      · have hsolid : (cs.dropWhile isBlank).head? = some '\n' := by
          cases cs with
          | nil => cases hline
          | cons c cs =>
              cases hline
              rfl
        rw [hsolid] at hhead
        exact ⟨_, _, rfl, Or.inl (beq_iff_eq.mp (Option.some.inj hhead))⟩

theorem Run.behind_lineBreak {source : String} {position : Nat} {last : Option Kind}
    {cs : List Char} {found : List Item} (run : Run position last cs found)
    (h : (cs.dropWhile isBlank).head? ≠ some '\n') (stop : Nat) (next : Token)
    (rest : List Token)
    (hnext : found.map (Token.ofItem source) ++ [Token.endAt stop] = next :: rest) :
    next.kind ≠ .lineBreak := by
  have hhead := run.head?_isLineBreak source
  cases found with
  | nil =>
      cases hnext
      intro hkind
      cases hkind
  | cons item found =>
      injection hnext with hitem _
      subst hitem
      intro hkind
      rw [List.map_cons, List.head?_cons, Option.map_some, Token.isLineBreak, hkind] at hhead
      cases hfirst : (cs.dropWhile isBlank).head? with
      | none =>
          rw [hfirst] at hhead
          cases hhead
      | some c =>
          rw [hfirst, Option.map_some, Option.some.injEq] at hhead
          exact h (by rw [hfirst, beq_iff_eq.mp hhead.symm])

/-- One step takes a token in normal form, whatever run goes on behind it. -/
theorem step_normal {source : String} {position : Nat} {last : Option Kind} {c : Char}
    {cs : List Char} {start : Nat} {found : List Item}
    (run : Run start (step position last c cs).last
      ((c :: cs).drop (step position last c cs).width) found) (stop : Nat) :
    (Token.ofItem source (step position last c cs).item).Normal
      (found.map (Token.ofItem source) ++ [Token.endAt stop]) := by
  have hwidth : forall kind, (Token.ofItem source (step position last c cs).item).kind = kind ->
      kind ≠ .unrecognised -> exists width,
        head? (signAllowed last) (c :: cs) = some (kind, width) ∧
          (step position last c cs).width = width := by
    rintro kind rfl hkind
    rw [Token.kind_ofItem] at hkind ⊢
    rcases head?_of_step hkind with ⟨width, hhead⟩
    refine ⟨width, hhead, ?_⟩
    unfold step
    rw [hhead]
  constructor
  · intro hkind
    rcases hwidth .comment hkind (by decide) with ⟨width, hhead, hstep⟩
    have hlength := (width_of_trivia hhead).1 rfl
    have hpos := width_pos hhead
    have hshape := step_shape source position last c cs
    rw [hkind] at hshape
    rcases hshape with ⟨body, hvalue, hbody⟩
    rw [hstep, hlength] at run
    refine ⟨?_, run.behind_comment (drop_commentLength (hlength ▸ hpos)) stop⟩
    rw [hvalue]
    simpa using hbody
  · intro hkind
    rcases hwidth .lineBreak hkind (by decide) with ⟨width, hhead, hstep⟩
    have hlength := (width_of_trivia hhead).2 rfl
    have hc := newline_of_kind hhead
    subst hc
    rcases lineBreakLength_split cs with ⟨lines, rest, hsplit, hlines, hblank, hnext⟩
    have hvalue := step_value position last '\n' cs
    rw [hstep, hlength, hlines, hsplit, List.take_left] at hvalue
    rw [hstep, hlength, hlines, hsplit, List.drop_left] at run
    refine ⟨?_, run.behind_lineBreak hnext stop⟩
    rw [Token.ofItem_eq_whole, hvalue]
    · exact hblank
    · rw [← Token.kind_ofItem source, hkind]
      decide

theorem Run.normal {source : String} {position : Nat} {last : Option Kind} {cs : List Char}
    {found : List Item} (run : Run position last cs found) (stop : Nat)
    {before after : List Token} {t : Token}
    (h : found.map (Token.ofItem source) ++ [Token.endAt stop] = before ++ t :: after) :
    t.Normal after := by
  induction run generalizing before with
  | nil position last =>
      cases before with
      | nil =>
          cases h
          constructor
          · intro hkind
            cases hkind
          · intro hkind
            cases hkind
      | cons first before =>
          injection h with _ hnone
          cases before <;> cases hnone
  | blank hblank rest ih => exact ih h
  | item hblank rest ih =>
      cases before with
      | nil =>
          cases h
          exact step_normal rest stop
      | cons first before =>
          injection h with _ hrest
          exact ih hrest

end Lexical

/-- Trivia is in normal form: a comment has no line feed in it, and directly behind it stands
a line break or the token behind the text; a line break is nothing but line feeds and blanks
with a line feed at both ends, and directly behind it stands no other. -/
theorem tokenize_normal (source : String) (before after : List Token) (t : Token)
    (h : (tokenize source).1 = before ++ t :: after) : t.Normal after := by
  rcases Lexical.exists_run 0 none source.toList with ⟨found, hrun⟩
  rw [hrun.tokenize_eq.1] at h
  exact hrun.normal _ h

/-- The comment at the end of the first line, and the line break behind it with a blank line
and a carriage return. -/
theorem tokenize_normal_blank_lines :
    exists before comment lineBreak after,
      (tokenize "a -- b\n \r\n\tc").1 = before ++ comment :: lineBreak :: after ∧
      comment.kind = .comment ∧ '\n' ∉ comment.value.toList ∧
      lineBreak.kind = .lineBreak ∧ lineBreak.value = "\n \r\n" ∧
      Lexical.BlankLines lineBreak.value.toList ∧
      forall next rest, after = next :: rest -> next.kind ≠ .lineBreak := by
  let before : List Token := [⟨⟨"a", ⟨0, 1⟩⟩, .lowercaseName⟩]
  let comment : Token := ⟨⟨"-- b", ⟨2, 6⟩⟩, .comment⟩
  let lineBreak : Token := ⟨⟨"\n \r\n", ⟨6, 10⟩⟩, .lineBreak⟩
  let after : List Token := [⟨⟨"c", ⟨11, 12⟩⟩, .lowercaseName⟩, ⟨⟨"", ⟨12, 12⟩⟩, .endOfInput⟩]
  have hcomment : (tokenize "a -- b\n \r\n\tc").1 = before ++ comment :: lineBreak :: after := by
    decide +kernel
  have hbreak : (tokenize "a -- b\n \r\n\tc").1 =
      (before ++ [comment]) ++ lineBreak :: after := by
    decide +kernel
  rcases (tokenize_normal _ _ _ _ hcomment).comment rfl with ⟨hline, _⟩
  rcases (tokenize_normal _ _ _ _ hbreak).lineBreak rfl with ⟨hblank, hnext⟩
  exact ⟨before, comment, lineBreak, after, hcomment, rfl, hline, rfl, rfl, hblank, hnext⟩

end Linewise
