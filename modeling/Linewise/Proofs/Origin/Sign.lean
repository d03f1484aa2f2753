import Linewise.Proofs.Respacing.Measure

/-!
# Signs of numbers

A plus or a dash with a digit behind it may be the sign of a number or an operator.  Which
of the two it is hangs on the kind of the last token before it, stray characters left out:
behind the end of an operand it is an operator, elsewhere a sign.
-/

namespace Linewise

namespace Lexical

def isSign (c : Char) : Bool := c == '+' || c == '-'

def signMark (sign : Char) : Mark := if sign = '+' then .plus else .dash

theorem isSign_cases {c : Char} (h : isSign c = true) : c = '+' ∨ c = '-' := by
  simpa [isSign] using h

/-!
## The token at a sign
-/

theorem isDigit_sign {c : Char} (h : isSign c = true) : Text.isDigit c = false := by
  rcases isSign_cases h with rfl | rfl <;> decide +kernel

theorem numberLength_digit {c : Char} (h : Text.isDigit c = true) (cs : List Char) :
    0 < numberLength (c :: cs) := by
  have hwhole : 0 < digitsLength (c :: cs) := by
    rw [digitsLength_cons, if_pos h]
    omega
  unfold numberLength
  dsimp only
  rw [if_neg (Nat.ne_of_gt hwhole)]
  omega

theorem numberLength_none {c : Char} (h : Text.isDigit c = false) (cs : List Char) :
    numberLength (c :: cs) = 0 := by
  simp [numberLength, digitsLength_cons, h]

theorem markLength_sign {sign digit : Char} (hsign : isSign sign = true)
    (hdigit : Text.isDigit digit = true) (cs : List Char) (mark : Mark) :
    markLength mark (sign :: digit :: cs) = if mark = signMark sign then 1 else 0 := by
  have harrow : '>' ≠ digit := by
    rintro rfl
    exact absurd hdigit (by decide +kernel)
  rcases isSign_cases hsign with rfl | rfl
  · cases mark <;> simp [markLength, Mark.spelling, signMark]
  · cases mark <;> simp [markLength, Mark.spelling, signMark, harrow]

theorem candidates_sign {sign digit : Char} (hsign : isSign sign = true)
    (hdigit : Text.isDigit digit = true) (signed : Bool) (cs : List Char) :
    exists kind, candidates signed (sign :: digit :: cs) =
      [(.comment, 0), (.text, 0),
        (.number, if signed then 1 + numberLength (digit :: cs) else 0), (.number, 0),
        (.capitalName, 0), (kind, 0), (.lineBreak, 0)] ++
      Mark.all.map (fun mark => (.mark mark, if mark = signMark sign then 1 else 0)) := by
  have hdash : digit ≠ '-' := by
    rintro rfl
    exact absurd hdigit (by decide +kernel)
  have hcomment := commentLength_none (c := sign) (d := digit) (fun h => hdash h.2) cs
  have hnumber := numberLength_none (isDigit_sign hsign) (digit :: cs)
  have hsigned : signedNumberLength (sign :: digit :: cs) = 1 + numberLength (digit :: cs) := by
    have hsome := numberLength_digit hdigit cs
    have hboth : ((sign == '+' || sign == '-') && numberLength (digit :: cs) != 0) = true := by
      simpa [isSign, Nat.ne_of_gt hsome] using hsign
    rw [signedNumberLength, if_pos hboth]
  have hclasses : textLength (sign :: digit :: cs) = 0 ∧
      capitalNameLength (sign :: digit :: cs) = 0 ∧ nameLength (sign :: digit :: cs) = 0 ∧
      lineBreakLength (sign :: digit :: cs) = 0 := by
    have hword : Text.isWordChar sign = false := by
      rcases isSign_cases hsign with rfl | rfl <;> decide +kernel
    have hupper : sign.isUpper = false := by
      rcases isSign_cases hsign with rfl | rfl <;> decide
    have hother : sign ≠ '"' ∧ sign ≠ '\n' := by
      rcases isSign_cases hsign with rfl | rfl <;> decide
    rw [textLength_none hother.1, lineBreakLength_none hother.2]
    simp [capitalNameLength_cons, nameLength, hupper, hword, isDigit_sign hsign]
  exists wordKind (String.ofList ((sign :: digit :: cs).take 0))
  simp only [candidates, hcomment, hclasses, hsigned, hnumber, markLength_sign hsign hdigit]

theorem longest_zero (kind : Kind) (rest : List (Kind × Nat)) :
    longest ((kind, 0) :: rest) = longest rest := by
  rw [longest]
  cases hrest : longest rest with
  | none => rfl
  | some best => exact if_pos (mem_of_longest hrest).2

theorem longest_marks {sign : Char} (hsign : isSign sign = true) :
    longest (Mark.all.map (fun mark => (Kind.mark mark, if mark = signMark sign then 1 else 0))) =
      some (.mark (signMark sign), 1) := by
  rcases isSign_cases hsign with rfl | rfl <;> decide +kernel

theorem head?_sign {sign digit : Char} (hsign : isSign sign = true)
    (hdigit : Text.isDigit digit = true) (signed : Bool) (cs : List Char) :
    head? signed (sign :: digit :: cs) =
      if signed then some (.number, 1 + numberLength (digit :: cs))
      else some (.mark (signMark sign), 1) := by
  rcases candidates_sign hsign hdigit signed cs with ⟨kind, hcandidates⟩
  have hsome := numberLength_digit hdigit cs
  rw [head?, hcandidates]
  simp only [List.cons_append, List.nil_append, longest_zero]
  cases signed with
  | true =>
      have hlonger : ¬ 1 + numberLength (digit :: cs) < 1 := by omega
      rw [if_pos rfl, longest]
      simp only [longest_zero, longest_marks hsign, hlonger, if_false, if_true]
  | false =>
      simp only [Bool.false_eq_true, if_false, longest_zero, longest_marks hsign]

/-- A number that begins with a sign is read only where a sign is allowed, and has a digit
behind it. -/
theorem sign_of_head? {signed : Bool} {sign : Char} {cs : List Char} {width : Nat}
    (h : head? signed (sign :: cs) = some (.number, width)) (hsign : isSign sign = true) :
    signed = true ∧ exists digit more, cs = digit :: more ∧ Text.isDigit digit = true := by
  rcases mem_of_longest h with ⟨hmem, hwidth⟩
  unfold candidates at hmem
  rcases List.mem_append.mp hmem with hclass | hmark
  · simp only [List.mem_cons, List.not_mem_nil, or_false, Prod.mk.injEq, reduceCtorEq,
      false_and, false_or, true_and] at hclass
    rcases hclass with hsigned | hplain | hword
    · cases signed with
      | false =>
          simp only [Bool.false_eq_true, if_false] at hsigned
          omega
      | true =>
          refine ⟨rfl, ?_⟩
          rw [if_pos rfl, signedNumberLength] at hsigned
          cases cs with
          | nil =>
              simp [numberLength, digitsLength] at hsigned
              omega
          | cons digit more =>
              refine ⟨digit, more, rfl, ?_⟩
              cases hdigit : Text.isDigit digit with
              | true => rfl
              | false =>
                  simp [numberLength_none hdigit] at hsigned
                  omega
    · rw [numberLength_none (isDigit_sign hsign)] at hplain
      omega
    · rcases wordKind_cases (String.ofList ((sign :: cs).take (nameLength (sign :: cs)))) with
        hkind | hkind
      · rw [hkind] at hword
        cases hword.1
      · rw [← hword.1] at hkind
        cases hkind
  · rcases List.mem_map.mp hmark with ⟨mark, _, hpair⟩
    cases hpair

end Lexical

/-!
## The tokens of a text
-/

namespace Token

/-- The kind of the last token that is no stray character. -/
def lastKind (tokens : List Token) : Option Kind :=
  ((tokens.filter (fun t => t.kind != .unrecognised)).getLast?).map Token.kind

/-- The last token that is no stray character may end an operand. -/
def EndOperand (tokens : List Token) : Prop :=
  exists kind, lastKind tokens = some kind ∧ kind.endsOperand = true

/-- The number of characters that the token takes of its text: a stray character is one,
whatever the token has kept of it. -/
def width (t : Token) : Nat := if t.kind = .unrecognised then 1 else t.value.toList.length

/-- What is left of a text behind these tokens, without the blanks in front of the next
one. -/
def remaining : List Token -> List Char -> List Char
  | [], cs => cs.dropWhile Lexical.isBlank
  | t :: rest, cs => remaining rest ((cs.dropWhile Lexical.isBlank).drop t.width)

/-- The token is what stands at the head of `back`, which stands at the byte `position`. -/
structure Heads (t : Token) (position : Nat) (back : List Char) : Prop where
  value : t.value.toList <+: back
  span : t.span = Span.between position (position + Text.byteLength (back.take t.width))

/-- How the token at the head of `back` is read if there is a sign with a digit behind it:
as an operator behind an operand, and elsewhere as a number.  No other number begins with a
sign. -/
structure SignRule (behindOperand : Prop) (back : List Char) (t : Token) : Prop where
  operator : forall sign digit cs, back = sign :: digit :: cs -> Lexical.isSign sign = true ->
    Text.isDigit digit = true -> behindOperand ->
      t.kind = .mark (Lexical.signMark sign) ∧ t.value = String.singleton sign
  number : forall sign digit cs, back = sign :: digit :: cs -> Lexical.isSign sign = true ->
    Text.isDigit digit = true -> ¬ behindOperand ->
      t.kind = .number ∧
        t.value.toList = sign :: (digit :: cs).take (Lexical.numberLength (digit :: cs))
  only : forall sign cs, t.kind = .number -> t.value.toList = sign :: cs ->
    Lexical.isSign sign = true -> ¬ behindOperand ∧
      exists digit more, back = sign :: digit :: more ∧ Text.isDigit digit = true

end Token

namespace Lexical

theorem signAllowed_eq_false {last : Option Kind} :
    signAllowed last = false <-> exists kind, last = some kind ∧ kind.endsOperand = true := by
  cases last with
  | none => simp [signAllowed]
  | some kind => simp [signAllowed]

theorem step_last (source : String) (position : Nat) (last : Option Kind) (c : Char)
    (cs : List Char) :
    (step position last c cs).last =
      (Token.lastKind [Token.ofItem source (step position last c cs).item]).or last := by
  unfold step
  split
  · rename_i kind width hhead
    have hkind := kind_of_head? hhead
    simp [Token.whole, Token.lastKind, hkind]
  · simp [Token.whole, Token.lastKind]

theorem step_of_head? {last : Option Kind} {c : Char} {cs : List Char} {kind : Kind}
    {width : Nat} (source : String) (position : Nat)
    (h : head? (signAllowed last) (c :: cs) = some (kind, width)) :
    (Token.ofItem source (step position last c cs).item).kind = kind ∧
      (Token.ofItem source (step position last c cs).item).value =
        String.ofList ((c :: cs).take width) := by
  unfold step
  rw [h]
  exact ⟨rfl, rfl⟩

theorem head?_of_step {position : Nat} {last : Option Kind} {c : Char} {cs : List Char}
    (h : (Token.whole (step position last c cs).item).kind ≠ .unrecognised) :
    exists width, head? (signAllowed last) (c :: cs) =
      some ((Token.whole (step position last c cs).item).kind, width) := by
  unfold step at h ⊢
  split
  · rename_i kind width hhead
    exact ⟨width, hhead⟩
  · rename_i hhead
    rw [hhead] at h
    exact absurd rfl h

theorem step_sign (source : String) (position : Nat) (last : Option Kind) (c : Char)
    (cs : List Char) :
    Token.SignRule (signAllowed last = false) (c :: cs)
      (Token.ofItem source (step position last c cs).item) where
  operator := by
    intro sign digit rest hback hsign hdigit hbehind
    cases hback
    have hhead := head?_sign hsign hdigit (signAllowed last) rest
    rw [if_neg (by simp [hbehind])] at hhead
    exact step_of_head? source position hhead
  number := by
    intro sign digit rest hback hsign hdigit hbehind
    cases hback
    have hhead := head?_sign hsign hdigit (signAllowed last) rest
    rw [if_pos (by simpa using hbehind)] at hhead
    rcases step_of_head? source position hhead with ⟨hkind, hvalue⟩
    refine ⟨hkind, ?_⟩
    rw [hvalue, String.toList_ofList, Nat.add_comm, List.take_succ_cons]
  only := by
    intro sign rest hkind hvalue hsign
    rw [Token.kind_ofItem] at hkind
    have hsolid : (Token.whole (step position last c cs).item).kind ≠ .unrecognised := by
      simp [hkind]
    rcases head?_of_step hsolid with ⟨width, hhead⟩
    rw [hkind] at hhead
    have hwidth := step_width_pos position last c cs
    rw [Token.ofItem_eq_whole hsolid, step_value, ← Nat.sub_add_cancel hwidth,
      List.take_succ_cons] at hvalue
    injection hvalue with hc _
    subst hc
    rcases sign_of_head? hhead hsign with ⟨hallowed, digit, more, hmore, hdigit⟩
    refine ⟨by simp [hallowed], digit, more, by rw [hmore], hdigit⟩

/-!
## All tokens of a run
-/

theorem lastKind_cons (t : Token) (rest : List Token) :
    Token.lastKind (t :: rest) = (Token.lastKind rest).or (Token.lastKind [t]) := by
  rw [← List.singleton_append, Token.lastKind, List.filter_append, List.getLast?_append,
    Option.map_or]
  rfl

theorem remaining_blank {c : Char} (hblank : isBlank c = true) (cs : List Char)
    (tokens : List Token) : Token.remaining tokens (c :: cs) = Token.remaining tokens cs := by
  cases tokens <;> rw [Token.remaining, Token.remaining, List.dropWhile_cons_of_pos hblank]

theorem dropWhile_blank {c : Char} (hblank : isBlank c = false) (cs : List Char) :
    (c :: cs).dropWhile isBlank = c :: cs :=
  List.dropWhile_cons_of_neg (by simp [hblank])

theorem width_step (source : String) (position : Nat) (last : Option Kind) (c : Char)
    (cs : List Char) :
    (Token.ofItem source (step position last c cs).item).width =
      min (step position last c cs).width (c :: cs).length := by
  unfold step
  split
  · rename_i kind width hhead
    have hkind := kind_of_head? hhead
    simp [Token.width, Token.ofItem, hkind]
  · simp [Token.width, Token.ofItem]

theorem remaining_step {position : Nat} {last : Option Kind} {c : Char} {cs : List Char}
    (hblank : isBlank c = false) (source : String) (rest : List Token) :
    Token.remaining (Token.ofItem source (step position last c cs).item :: rest) (c :: cs) =
      Token.remaining rest ((c :: cs).drop (step position last c cs).width) := by
  rw [Token.remaining, dropWhile_blank hblank, width_step, ← List.drop_eq_drop_min]

/-- The token of a step stands at the head of the text, if only with an empty text of its
own. -/
theorem step_heads {source : String} {front cs : List Char} {c : Char} (last : Option Kind)
    (h : source.toList = front ++ c :: cs) :
    (Token.ofItem source (step (Text.byteLength front) last c cs).item).Heads
      (Text.byteLength front) (c :: cs) where
  value := by
    rcases step_whole last h with hwhole | ⟨_, hnone⟩
    · rw [hwhole, step_value]
      exact List.take_prefix _ _
    · rw [hnone]
      exact List.nil_prefix
  span := by
    rw [Token.span_ofItem, step_span, width_step, ← List.take_eq_take_min]

theorem Run.signs {source : String} {position : Nat} {last : Option Kind} {cs : List Char}
    {found : List Item} (run : Run position last cs found) {front : List Char}
    (hsource : source.toList = front ++ cs) (hfront : Text.byteLength front = position)
    {before after : List Token} {t : Token}
    (h : found.map (Token.ofItem source) ++ [Token.endAt (Text.byteLength source.toList)] =
      before ++ t :: after) :
    exists passed, cs = passed ++ Token.remaining before cs ∧
      t.Heads (position + Text.byteLength passed) (Token.remaining before cs) ∧
      Token.SignRule (signAllowed ((Token.lastKind before).or last) = false)
        (Token.remaining before cs) t := by
  induction run generalizing front before with
  | nil position last =>
      rw [List.append_nil] at hsource
      cases before with
      | nil =>
          cases h
          refine ⟨[], rfl, ⟨List.prefix_rfl, ?_⟩, ?_, ?_, ?_⟩
          · rw [hsource, hfront]
            rfl
          · intro sign digit cs hback
            cases hback
          · intro sign digit cs hback
            cases hback
          · intro sign cs hkind
            cases hkind
      | cons first before =>
          injection h with _ hnone
          cases before <;> cases hnone
  | @blank position last c cs found hblank rest ih =>
      have hbehind : source.toList = (front ++ [c]) ++ cs := by
        rw [hsource, List.append_assoc, List.singleton_append]
      rcases ih hbehind (by simp [hfront]) h with ⟨passed, hpassed, hheads, hrule⟩
      rw [remaining_blank hblank]
      refine ⟨c :: passed, congrArg (List.cons c) hpassed, ?_, hrule⟩
      rw [Text.byteLength_cons, ← Nat.add_assoc]
      exact hheads
  | @item position last c cs found hblank rest ih =>
      have hsplit := List.take_append_drop (step position last c cs).width (c :: cs)
      cases before with
      | nil =>
          cases h
          subst hfront
          refine ⟨[], (dropWhile_blank hblank cs).symm, ?_, ?_⟩
          · rw [Token.remaining, dropWhile_blank hblank]
            exact step_heads last hsource
          · rw [Token.remaining, dropWhile_blank hblank]
            exact step_sign source _ last c cs
      | cons first before =>
          injection h with hfirst hrest
          subst hfirst
          have hbehind : source.toList =
              (front ++ (c :: cs).take (step position last c cs).width) ++
                (c :: cs).drop (step position last c cs).width := by
            rw [List.append_assoc, hsplit, hsource]
          rcases ih hbehind (by rw [Text.byteLength_append, hfront]) hrest with
            ⟨passed, hpassed, hheads, hrule⟩
          rw [remaining_step hblank, lastKind_cons, Option.or_assoc, ← step_last]
          refine ⟨(c :: cs).take (step position last c cs).width ++ passed, ?_, ?_, hrule⟩
          · rw [List.append_assoc, ← hpassed, hsplit]
          · rw [Text.byteLength_append, ← Nat.add_assoc]
            exact hheads

end Lexical

/-- Signs in a text: a token stands at the head of what the tokens before it leave of the
text.  If that begins with a sign and a digit, the token is the operator if the last token
before it that is no stray character may end an operand, and otherwise a number that begins
with the sign.  No other number begins with a sign. -/
theorem tokenize_signs (source : String) (before after : List Token) (t : Token)
    (h : (tokenize source).1 = before ++ t :: after) :
    exists passed, source.toList = passed ++ Token.remaining before source.toList ∧
      t.Heads (Text.byteLength passed) (Token.remaining before source.toList) ∧
      Token.SignRule (Token.EndOperand before) (Token.remaining before source.toList) t := by
  rcases Lexical.exists_run 0 none source.toList with ⟨found, hrun⟩
  rw [hrun.tokenize_eq.1] at h
  rcases hrun.signs (List.nil_append _).symm rfl h with ⟨passed, hpassed, hheads, hrule⟩
  rw [Nat.zero_add] at hheads
  rw [Option.or_none, Lexical.signAllowed_eq_false] at hrule
  exact ⟨passed, hpassed, hheads, hrule⟩

/-- In `(§ -1 +2` the dash is a sign, as the last token before it but the stray one is a
parenthesis that opens, and the plus is an operator behind the number. -/
theorem tokenize_signs_stray :
    exists before after dash plus, (tokenize "(§ -1 +2").1 = before ++ dash :: plus :: after ∧
      Token.lastKind before = some (.mark .openParen) ∧
      dash.kind = .number ∧ dash.value.toList = ['-', '1'] ∧
      plus.kind = .mark .plus ∧ plus.value = "+" := by
  let before : List Token :=
    [⟨⟨"(", ⟨0, 1⟩⟩, .mark .openParen⟩, ⟨⟨"§", ⟨1, 3⟩⟩, .unrecognised⟩]
  let dash : Token := ⟨⟨"-1", ⟨4, 6⟩⟩, .number⟩
  let plus : Token := ⟨⟨"+", ⟨7, 8⟩⟩, .mark .plus⟩
  let after : List Token := [⟨⟨"2", ⟨8, 9⟩⟩, .number⟩, ⟨⟨"", ⟨9, 9⟩⟩, .endOfInput⟩]
  have hdash : (tokenize "(§ -1 +2").1 = before ++ dash :: plus :: after := by decide +kernel
  have hplus : (tokenize "(§ -1 +2").1 = (before ++ [dash]) ++ plus :: after := by
    decide +kernel
  have hopen : Token.lastKind before = some (.mark .openParen) := by decide +kernel
  rcases tokenize_signs _ _ _ _ hdash with ⟨_, _, _, hnumber⟩
  rcases tokenize_signs _ _ _ _ hplus with ⟨_, _, _, hoperator⟩
  have hsign := hnumber.number '-' '1' [' ', '+', '2'] (by decide +kernel) rfl
    (by decide +kernel) (by simp [Token.EndOperand, hopen, Kind.endsOperand])
  have hmark := hoperator.operator '+' '2' [] (by decide +kernel) rfl (by decide +kernel)
    ⟨.number, by decide +kernel, rfl⟩
  refine ⟨before, after, dash, plus, hdash, hopen, hsign.1, ?_, hmark.1, ?_⟩
  · rw [hsign.2]
    decide +kernel
  · rw [hmark.2]
    rfl

end Linewise
