import Linewise.Proofs.Lossless
import Mathlib.Data.List.Basic

/-!
# Lexical classes and what stands behind them

How long the member of a class at the head of a text is can hang on what stands behind
it.  It does so in one way only: the member may go on there.  And no class but those of
texts, comments and line breaks goes on in a blank or in a line feed.
-/

namespace Linewise
namespace Lexical

/-!
## Measures at the head of a text
-/

def Local (measure : List Char -> Nat) (front : List Char) : Prop :=
  forall rest, measure (front ++ rest) <= front.length ->
    measure (front ++ rest) = measure front

def Mute : List Char -> Prop
  | [] => True
  | c :: _ => c = ' ' ∨ c = '\n'

structure Stable (measure : List Char -> Nat) (front : List Char) : Prop where
  alone : Local measure front
  within : forall rest, Mute rest -> measure (front ++ rest) <= front.length

section Stable

variable {measure first second inner : List Char -> Nat} {front : List Char} {c : Char}

theorem local_nil (h : measure [] = 0) : Local measure [] := by
  intro rest hle
  rw [h]
  exact Nat.le_zero.mp hle

theorem stable_nil (hnil : measure [] = 0) (hblank : forall rest, measure (' ' :: rest) = 0)
    (hnewline : forall rest, measure ('\n' :: rest) = 0) : Stable measure [] where
  alone := local_nil hnil
  within := by
    intro rest hmute
    rw [List.nil_append, List.length_nil, Nat.le_zero]
    cases rest with
    | nil => exact hnil
    | cons c rest =>
        rcases hmute with rfl | rfl
        · exact hblank rest
        · exact hnewline rest

theorem stable_none (h : forall cs, measure (c :: cs) = 0) : Stable measure (c :: front) where
  alone := by
    intro rest _
    rw [List.cons_append, h, h]
  within := by
    intro rest _
    rw [List.cons_append, h]
    exact Nat.zero_le _

def joined (length : Nat) : Nat := if length = 0 then 0 else 1 + length

theorem joined_cases (length : Nat) :
    joined length = 1 + length ∨ length = 0 ∧ joined length = 0 := by
  unfold joined
  split
  · exact Or.inr ⟨‹_›, rfl⟩
  · exact Or.inl rfl

theorem Stable.lead {grow : Nat -> Nat} (hgrow : forall n, grow n = 1 + n ∨ n = 0 ∧ grow n = 0)
    (h : forall cs, measure (c :: cs) = grow (inner cs)) (hinner : Stable inner front) :
    Stable measure (c :: front) where
  alone := by
    intro rest hle
    have hmore := hgrow (inner (front ++ rest))
    rw [List.cons_append, h, List.length_cons] at hle
    rw [List.cons_append, h, h, hinner.alone rest (by omega)]
  within := by
    intro rest hmute
    have hle := hinner.within rest hmute
    have hmore := hgrow (inner (front ++ rest))
    rw [List.cons_append, h, List.length_cons]
    omega

theorem Stable.cons (h : forall cs, measure (c :: cs) = 1 + inner cs)
    (hinner : Stable inner front) : Stable measure (c :: front) :=
  hinner.lead (fun _ => Or.inl rfl) h

theorem Stable.behind (hfirst : Stable first front) (hsecond : forall front, Stable second front) :
    Stable (fun cs => first cs + second (cs.drop (first cs))) front where
  alone := by
    intro rest hle
    dsimp only at hle ⊢
    have hsame := hfirst.alone rest (by omega)
    rw [hsame] at hle ⊢
    rw [List.drop_append_of_le_length (by omega)] at hle ⊢
    rw [(hsecond (front.drop (first front))).alone rest (by rw [List.length_drop]; omega)]
  within := by
    intro rest hmute
    have hle := hfirst.within rest hmute
    have hmore := (hsecond (front.drop (first (front ++ rest)))).within rest hmute
    rw [List.length_drop] at hmore
    rw [List.drop_append_of_le_length hle]
    omega

end Stable

/-!
## Numbers
-/

theorem isWordChar_blank : Text.isWordChar ' ' = false := by decide +kernel

theorem isWordChar_newline : Text.isWordChar '\n' = false := by decide +kernel

theorem isDigit_blank : Text.isDigit ' ' = false := by decide +kernel

theorem isDigit_newline : Text.isDigit '\n' = false := by decide +kernel

theorem digitsLength_cons (c : Char) (cs : List Char) :
    digitsLength (c :: cs) = if Text.isDigit c then 1 + digitsLength cs else 0 := by
  unfold digitsLength
  rw [List.takeWhile_cons]
  split
  · rw [List.length_cons, Nat.add_comm]
  · rfl

theorem digitsLength_stable (front : List Char) : Stable digitsLength front := by
  induction front with
  | nil =>
      apply stable_nil rfl
      · simp [digitsLength_cons, isDigit_blank]
      · simp [digitsLength_cons, isDigit_newline]
  | cons c front ih =>
      by_cases hc : Text.isDigit c = true
      · exact ih.cons (by simp [digitsLength_cons, hc])
      · exact stable_none (by simp [digitsLength_cons, hc])

theorem fractionLength_stable (front : List Char) : Stable fractionLength front := by
  cases front with
  | nil => exact stable_nil rfl (fun _ => rfl) (fun _ => rfl)
  | cons c front =>
      by_cases hc : c = '.'
      · rw [hc]
        exact (digitsLength_stable front).lead joined_cases (fun _ => rfl)
      · exact stable_none (by simp [fractionLength, hc])

theorem numberLength_stable (front : List Char) : Stable numberLength front := by
  have hwhole := digitsLength_stable front
  have hall := hwhole.behind fractionLength_stable
  constructor
  · intro rest hle
    unfold numberLength at hle ⊢
    dsimp only at hle ⊢
    by_cases hnone : digitsLength (front ++ rest) = 0
    · have hsame := hwhole.alone rest (by omega)
      rw [if_pos hnone, if_pos (by omega)]
    · rw [if_neg hnone] at hle ⊢
      have hsame := hwhole.alone rest (by omega)
      rw [if_neg (by omega)]
      exact hall.alone rest hle
  · intro rest hmute
    unfold numberLength
    dsimp only
    split
    · exact Nat.zero_le _
    · exact hall.within rest hmute

theorem signedNumberLength_stable (front : List Char) : Stable signedNumberLength front := by
  cases front with
  | nil => exact stable_nil rfl (fun _ => rfl) (fun _ => rfl)
  | cons c front =>
      by_cases hc : (c == '+' || c == '-') = true
      · apply (numberLength_stable front).lead joined_cases
        intro cs
        by_cases hnone : numberLength cs = 0
        · simp [signedNumberLength, joined, hnone]
        · simp [signedNumberLength, joined, hc, hnone]
      · exact stable_none (by simp [signedNumberLength, hc])

/-!
## Names
-/

theorem closingLength_stable (front : List Char) : Stable closingLength front := by
  cases front with
  | nil => exact stable_nil rfl (fun _ => rfl) (fun _ => rfl)
  | cons c front =>
      constructor
      · intro rest _
        rfl
      · intro rest _
        rw [List.cons_append, closingLength, List.length_cons]
        split
        · omega
        · exact Nat.zero_le _

def wordLength : List Char -> Nat
  | [] => 0
  | c :: rest => if Text.isWordChar c then 1 + wordTailLength rest else 0

theorem wordTailLength_cons (c : Char) (cs : List Char) :
    wordTailLength (c :: cs) =
      if Text.isWordChar c then 1 + wordTailLength cs
      else if c = '-' then joined (wordLength cs) else 0 := by
  rw [wordTailLength.eq_def]
  cases cs with
  | nil => simp [joined, wordLength]
  | cons d cs =>
      by_cases hnext : Text.isWordChar d = true
      · have hsum : 2 + wordTailLength cs = 1 + (1 + wordTailLength cs) := by omega
        simp [joined, wordLength, hnext, hsum]
      · simp [joined, wordLength, hnext]

theorem wordTailLength_stable_both (front : List Char) :
    Stable wordTailLength front ∧ Stable wordLength front := by
  induction front with
  | nil =>
      constructor
      · apply stable_nil rfl
        · simp [wordTailLength_cons, isWordChar_blank]
        · simp [wordTailLength_cons, isWordChar_newline]
      · apply stable_nil rfl
        · simp [wordLength, isWordChar_blank]
        · simp [wordLength, isWordChar_newline]
  | cons c front ih =>
      by_cases hword : Text.isWordChar c = true
      · constructor
        · exact ih.1.cons (by simp [wordTailLength_cons, hword])
        · exact ih.1.cons (by simp [wordLength, hword])
      · constructor
        · by_cases hdash : c = '-'
          · apply ih.2.lead joined_cases
            intro cs
            rw [wordTailLength_cons, if_neg hword, if_pos hdash]
          · exact stable_none (by simp [wordTailLength_cons, hword, hdash])
        · exact stable_none (by simp [wordLength, hword])

theorem nameTailLength_stable (front : List Char) : Stable nameTailLength front :=
  (wordTailLength_stable_both front).1.behind closingLength_stable

theorem nameLength_stable (front : List Char) : Stable nameLength front := by
  cases front with
  | nil =>
      apply stable_nil rfl
      · simp [nameLength, isWordChar_blank]
      · simp [nameLength, isWordChar_newline]
  | cons c front =>
      by_cases hc : Text.isWordChar c = true
      · exact (nameTailLength_stable front).cons (by simp [nameLength, hc])
      · exact stable_none (by simp [nameLength, hc])

def dashedNameLength : List Char -> Nat
  | [] => 0
  | c :: rest => if c = '-' then joined (capitalNameLength rest) else 0

theorem capitalNameLength_cons (c : Char) (cs : List Char) :
    capitalNameLength (c :: cs) =
      if c.isUpper then 1 + nameTailLength cs
      else if Text.isDigit c then joined (dashedNameLength cs) else 0 := by
  rw [capitalNameLength.eq_def]
  cases cs with
  | nil => rfl
  | cons d cs =>
      by_cases hdash : d = '-'
      · by_cases hnone : capitalNameLength cs = 0
        · simp [joined, dashedNameLength, hdash, hnone]
        · have hsum : 2 + capitalNameLength cs = 1 + (1 + capitalNameLength cs) := by omega
          simp [joined, dashedNameLength, hdash, hnone, hsum]
      · simp [joined, dashedNameLength, hdash]

theorem capitalNameLength_stable_both (front : List Char) :
    Stable capitalNameLength front ∧ Stable dashedNameLength front := by
  induction front with
  | nil =>
      constructor
      · apply stable_nil rfl
        · simp [capitalNameLength_cons, isDigit_blank]
        · simp [capitalNameLength_cons, isDigit_newline]
      · exact stable_nil rfl (fun _ => rfl) (fun _ => rfl)
  | cons c front ih =>
      constructor
      · by_cases hupper : c.isUpper = true
        · exact (nameTailLength_stable front).cons (by simp [capitalNameLength_cons, hupper])
        · by_cases hdigit : Text.isDigit c = true
          · exact ih.2.lead joined_cases (by simp [capitalNameLength_cons, hupper, hdigit])
          · exact stable_none (by simp [capitalNameLength_cons, hupper, hdigit])
      · by_cases hdash : c = '-'
        · exact ih.1.lead joined_cases (by simp [dashedNameLength, hdash])
        · exact stable_none (by simp [dashedNameLength, hdash])

/-!
## Marks
-/

theorem spelling_solid (mark : Mark) :
    ' ' ∉ mark.spelling.toList ∧ '\n' ∉ mark.spelling.toList := by
  cases mark <;> decide +kernel

theorem markLength_stable (mark : Mark) (front : List Char) :
    Stable (markLength mark) front := by
  constructor
  · intro rest hle
    unfold markLength at hle ⊢
    dsimp only at hle ⊢
    by_cases hmark : mark.spelling.toList.isPrefixOf (front ++ rest) = true
    · rw [if_pos hmark] at hle ⊢
      have hfront : mark.spelling.toList <+: front :=
        List.prefix_of_prefix_length_le (List.isPrefixOf_iff_prefix.mp hmark)
          (List.prefix_append front rest) hle
      rw [if_pos (List.isPrefixOf_iff_prefix.mpr hfront)]
    · have hfront : ¬ mark.spelling.toList.isPrefixOf front = true := by
        intro hfront
        exact hmark (List.isPrefixOf_iff_prefix.mpr
          ((List.isPrefixOf_iff_prefix.mp hfront).trans (List.prefix_append front rest)))
      rw [if_neg hmark, if_neg hfront]
  · intro rest hmute
    unfold markLength
    dsimp only
    split
    · rename_i hmark
      apply Nat.le_of_not_lt
      intro hlonger
      -- then the spelling has the first character of the rest in it
      have hfront : front <+: mark.spelling.toList :=
        List.prefix_of_prefix_length_le (List.prefix_append front rest)
          (List.isPrefixOf_iff_prefix.mp hmark) (Nat.le_of_lt hlonger)
      rcases hfront with ⟨more, hmore⟩
      have hprefix := List.isPrefixOf_iff_prefix.mp hmark
      rw [← hmore, List.prefix_append_right_inj] at hprefix
      cases more with
      | nil =>
          rw [List.append_nil] at hmore
          rw [hmore] at hlonger
          exact Nat.lt_irrefl _ hlonger
      | cons d more =>
          rcases hprefix with ⟨behind, hbehind⟩
          rw [← hbehind] at hmute
          have hmem : d ∈ mark.spelling.toList := by simp [← hmore]
          rcases hmute with rfl | rfl
          · exact (spelling_solid mark).1 hmem
          · exact (spelling_solid mark).2 hmem
    · exact Nat.zero_le _

/-!
## Comments, texts and line breaks
-/

theorem length_takeWhile_ne (a : Char) (cs : List Char) :
    (cs.takeWhile (fun c => c != a)).length = cs.idxOf a := by
  induction cs with
  | nil => rfl
  | cons c cs ih =>
      by_cases hc : c = a
      · simp [hc]
      · simp [hc, ih, List.idxOf_cons_ne]

/-- What may stand behind a token if the blanks between the tokens are written anew:
the next token begins with the same character, and no text is closed that was not closed
before. -/
structure Respaced (rest rest' : List Char) : Prop where
  mute : Mute rest'
  line : rest.idxOf '\n' = 0 -> rest'.idxOf '\n' = 0
  quotes : '"' ∈ rest' -> '"' ∈ rest
  next : (rest'.dropWhile isBlank).head? = (rest.dropWhile isBlank).head?

theorem commentLength_dashes (cs : List Char) :
    commentLength ('-' :: '-' :: cs) = 2 + cs.idxOf '\n' := by
  rw [commentLength, length_takeWhile_ne]

theorem commentLength_none {c d : Char} (h : ¬ (c = '-' ∧ d = '-')) (cs : List Char) :
    commentLength (c :: d :: cs) = 0 := by
  unfold commentLength
  split
  · rename_i heq
    cases heq
    exact absurd ⟨rfl, rfl⟩ h
  · rfl

theorem commentLength_dashes_le {front rest : List Char} :
    commentLength ('-' :: '-' :: (front ++ rest)) <= front.length + 2 <->
      '\n' ∈ front ∨ rest.idxOf '\n' = 0 := by
  rw [commentLength_dashes]
  by_cases hfront : '\n' ∈ front
  · have hlt := List.idxOf_lt_length_iff.mpr hfront
    rw [List.idxOf_append_of_mem hfront]
    simp only [hfront, true_or, iff_true]
    omega
  · rw [List.idxOf_append_of_notMem hfront]
    simp only [hfront, false_or]
    omega

theorem commentLength_local (front : List Char) : Local commentLength front := by
  intro rest hle
  match front with
  | [] => exact Nat.le_zero.mp hle
  | [c] =>
      cases rest with
      | nil => rfl
      | cons d rest =>
          by_cases hdashes : c = '-' ∧ d = '-'
          · rcases hdashes with ⟨rfl, rfl⟩
            rw [List.singleton_append, commentLength_dashes, List.length_singleton] at hle
            omega
          · rw [List.singleton_append, commentLength_none hdashes]
            simp [commentLength]
  | c :: d :: front =>
      by_cases hdashes : c = '-' ∧ d = '-'
      · rcases hdashes with ⟨rfl, rfl⟩
        have hle := commentLength_dashes_le.mp hle
        rw [List.cons_append, List.cons_append, commentLength_dashes, commentLength_dashes]
        by_cases hfront : '\n' ∈ front
        · rw [List.idxOf_append_of_mem hfront]
        · have hrest := hle.resolve_left hfront
          rw [List.idxOf_append_of_notMem hfront, hrest, List.idxOf_of_notMem hfront,
            Nat.add_zero]
      · rw [List.cons_append, List.cons_append, commentLength_none hdashes,
          commentLength_none hdashes]

theorem commentLength_within {front rest rest' : List Char} (h : Respaced rest rest')
    (hne : front ≠ []) (hle : commentLength (front ++ rest) <= front.length) :
    commentLength (front ++ rest') <= front.length := by
  match front with
  | [] => exact absurd rfl hne
  | [c] =>
      cases rest' with
      | nil => simp [commentLength]
      | cons d rest' =>
          have hd : d ≠ '-' := by
            rcases h.mute with rfl | rfl
            · decide
            · decide
          rw [List.singleton_append, commentLength_none (fun hdashes => hd hdashes.2)]
          exact Nat.zero_le _
  | c :: d :: front =>
      by_cases hdashes : c = '-' ∧ d = '-'
      · rcases hdashes with ⟨rfl, rfl⟩
        apply commentLength_dashes_le.mpr
        exact (commentLength_dashes_le.mp hle).imp_right h.line
      · rw [List.cons_append, List.cons_append, commentLength_none hdashes]
        exact Nat.zero_le _

theorem textLength_quote (cs : List Char) :
    textLength ('"' :: cs) = if '"' ∈ cs then cs.idxOf '"' + 2 else 0 := by
  simp [textLength, length_takeWhile_ne, List.idxOf_lt_length_iff]

theorem textLength_none {c : Char} (hc : c ≠ '"') (cs : List Char) : textLength (c :: cs) = 0 := by
  simp [textLength, hc]

theorem textLength_quote_le {front rest : List Char} :
    textLength ('"' :: (front ++ rest)) <= front.length + 1 <-> ('"' ∈ rest -> '"' ∈ front) := by
  rw [textLength_quote]
  by_cases hfront : '"' ∈ front
  · have hlt := List.idxOf_lt_length_iff.mpr hfront
    rw [if_pos (List.mem_append_left rest hfront), List.idxOf_append_of_mem hfront]
    constructor
    · intro _ _
      exact hfront
    · intro _
      omega
  · by_cases hrest : '"' ∈ rest
    · rw [if_pos (List.mem_append_right front hrest), List.idxOf_append_of_notMem hfront]
      constructor
      · intro hle
        omega
      · intro hmem
        exact absurd (hmem hrest) hfront
    · simp [hfront, hrest]

theorem textLength_local (front : List Char) : Local textLength front := by
  intro rest hle
  cases front with
  | nil => exact Nat.le_zero.mp hle
  | cons c front =>
      by_cases hc : c = '"'
      · subst hc
        rw [List.cons_append, List.length_cons, textLength_quote_le] at hle
        rw [List.cons_append, textLength_quote, textLength_quote]
        by_cases hfront : '"' ∈ front
        · rw [if_pos hfront, if_pos (List.mem_append_left rest hfront),
            List.idxOf_append_of_mem hfront]
        · have hrest : '"' ∉ rest := fun hrest => hfront (hle hrest)
          simp [hfront, hrest]
      · rw [List.cons_append, textLength_none hc, textLength_none hc]

theorem textLength_within {front rest rest' : List Char} (h : Respaced rest rest')
    (hne : front ≠ []) (hle : textLength (front ++ rest) <= front.length) :
    textLength (front ++ rest') <= front.length := by
  cases front with
  | nil => exact absurd rfl hne
  | cons c front =>
      by_cases hc : c = '"'
      · subst hc
        rw [List.cons_append, List.length_cons, textLength_quote_le] at hle ⊢
        intro hrest
        exact hle (h.quotes hrest)
      · rw [List.cons_append, textLength_none hc]
        exact Nat.zero_le _

theorem blankLinesLength_none {cs : List Char} (pending : Nat)
    (h : (cs.dropWhile isBlank).head? ≠ some '\n') : blankLinesLength pending cs = 0 := by
  induction cs generalizing pending with
  | nil => rfl
  | cons c cs ih =>
      rw [blankLinesLength]
      cases hblank : isBlank c with
      | true =>
          rw [List.dropWhile_cons_of_pos hblank] at h
          have hc : c ≠ '\n' := by
            rintro rfl
            cases hblank
          rw [if_neg hc, if_pos rfl]
          exact ih (pending + 1) h
      | false =>
          rw [List.dropWhile_cons_of_neg (by simp [hblank])] at h
          have hc : c ≠ '\n' := fun hc => h (by rw [hc]; rfl)
          rw [if_neg hc]
          rfl

theorem lt_blankLinesLength {cs : List Char} (pending : Nat)
    (h : (cs.dropWhile isBlank).head? = some '\n') : pending < blankLinesLength pending cs := by
  induction cs generalizing pending with
  | nil => cases h
  | cons c cs ih =>
      rw [blankLinesLength]
      by_cases hc : c = '\n'
      · rw [if_pos hc]
        omega
      · rw [if_neg hc]
        cases hblank : isBlank c with
        | true =>
            rw [List.dropWhile_cons_of_pos hblank] at h
            have hlt := ih (pending + 1) h
            rw [if_pos rfl]
            omega
        | false =>
            rw [List.dropWhile_cons_of_neg (by simp [hblank])] at h
            exact absurd (Option.some.inj h) hc

theorem blankLinesLength_le {cs : List Char} {pending : Nat} :
    blankLinesLength pending cs <= pending <-> (cs.dropWhile isBlank).head? ≠ some '\n' := by
  constructor
  · intro hle h
    exact absurd (lt_blankLinesLength pending h) (Nat.not_lt.mpr hle)
  · intro h
    rw [blankLinesLength_none pending h]
    exact Nat.zero_le _

theorem blankLinesLength_local (front rest : List Char) (pending : Nat)
    (hle : blankLinesLength pending (front ++ rest) <= pending + front.length) :
    blankLinesLength pending (front ++ rest) = blankLinesLength pending front := by
  induction front generalizing pending with
  | nil => exact blankLinesLength_none pending (blankLinesLength_le.mp hle)
  | cons c front ih =>
      rw [List.cons_append, blankLinesLength, List.length_cons] at hle
      rw [List.cons_append, blankLinesLength, blankLinesLength]
      by_cases hc : c = '\n'
      · rw [if_pos hc] at hle
        rw [if_pos hc, if_pos hc, ih 0 (by omega)]
      · rw [if_neg hc] at hle
        by_cases hblank : isBlank c = true
        · rw [if_pos hblank] at hle
          rw [if_neg hc, if_neg hc, if_pos hblank, if_pos hblank, ih (pending + 1) (by omega)]
        · rw [if_neg hc, if_neg hc, if_neg hblank, if_neg hblank]

theorem blankLinesLength_within {rest rest' : List Char} (h : Respaced rest rest')
    (front : List Char) (pending : Nat)
    (hle : blankLinesLength pending (front ++ rest) <= pending + front.length) :
    blankLinesLength pending (front ++ rest') <= pending + front.length := by
  induction front generalizing pending with
  | nil =>
      have hnext := blankLinesLength_le.mp hle
      rw [List.nil_append, ← h.next] at hnext
      exact blankLinesLength_le.mpr hnext
  | cons c front ih =>
      rw [List.cons_append, blankLinesLength, List.length_cons] at hle ⊢
      by_cases hc : c = '\n'
      · have hrest := ih 0
        rw [if_pos hc] at hle ⊢
        omega
      · have hrest := ih (pending + 1)
        rw [if_neg hc] at hle ⊢
        by_cases hblank : isBlank c = true
        · rw [if_pos hblank] at hle ⊢
          omega
        · rw [if_neg hblank]
          exact Nat.zero_le _

theorem lineBreakLength_newline (cs : List Char) :
    lineBreakLength ('\n' :: cs) = 1 + blankLinesLength 0 cs := rfl

theorem lineBreakLength_none {c : Char} (hc : c ≠ '\n') (cs : List Char) :
    lineBreakLength (c :: cs) = 0 := by
  simp [lineBreakLength, hc]

theorem lineBreakLength_local (front : List Char) : Local lineBreakLength front := by
  intro rest hle
  cases front with
  | nil => exact Nat.le_zero.mp hle
  | cons c front =>
      by_cases hc : c = '\n'
      · subst hc
        rw [List.cons_append, lineBreakLength_newline, List.length_cons] at hle
        rw [List.cons_append, lineBreakLength_newline, lineBreakLength_newline,
          blankLinesLength_local front rest 0 (by omega)]
      · rw [List.cons_append, lineBreakLength_none hc, lineBreakLength_none hc]

theorem lineBreakLength_within {front rest rest' : List Char} (h : Respaced rest rest')
    (hne : front ≠ []) (hle : lineBreakLength (front ++ rest) <= front.length) :
    lineBreakLength (front ++ rest') <= front.length := by
  cases front with
  | nil => exact absurd rfl hne
  | cons c front =>
      by_cases hc : c = '\n'
      · subst hc
        rw [List.cons_append, lineBreakLength_newline, List.length_cons] at hle ⊢
        have hwithin := blankLinesLength_within h front 0
        omega
      · rw [List.cons_append, lineBreakLength_none hc]
        exact Nat.zero_le _

/-!
## The token at the head of a text
-/

structure Within (signed : Bool) (front rest : List Char) : Prop where
  comment : commentLength (front ++ rest) <= front.length
  text : textLength (front ++ rest) <= front.length
  signedNumber : signed = true -> signedNumberLength (front ++ rest) <= front.length
  number : numberLength (front ++ rest) <= front.length
  capitalName : capitalNameLength (front ++ rest) <= front.length
  name : nameLength (front ++ rest) <= front.length
  lineBreak : lineBreakLength (front ++ rest) <= front.length
  mark : forall mark, markLength mark (front ++ rest) <= front.length

variable {signed : Bool} {front rest rest' : List Char}

theorem Within.respaced (h : Within signed front rest) (hrest : Respaced rest rest')
    (hne : front ≠ []) : Within signed front rest' where
  comment := commentLength_within hrest hne h.comment
  text := textLength_within hrest hne h.text
  signedNumber _ := (signedNumberLength_stable front).within rest' hrest.mute
  number := (numberLength_stable front).within rest' hrest.mute
  capitalName := (capitalNameLength_stable_both front).1.within rest' hrest.mute
  name := (nameLength_stable front).within rest' hrest.mute
  lineBreak := lineBreakLength_within hrest hne h.lineBreak
  mark mark := (markLength_stable mark front).within rest' hrest.mute

theorem Within.candidates (h : Within signed front rest) :
    candidates signed (front ++ rest) = candidates signed front := by
  have hsigned : (if signed then signedNumberLength (front ++ rest) else 0) =
      if signed then signedNumberLength front else 0 := by
    cases signed with
    | true => exact (signedNumberLength_stable front).alone rest (h.signedNumber rfl)
    | false => rfl
  have hname := (nameLength_stable front).alone rest h.name
  have hword : (front ++ rest).take (nameLength (front ++ rest)) =
      front.take (nameLength front) := by
    rw [List.take_append_of_le_length h.name, hname]
  have hmarks : (fun mark => (Kind.mark mark, markLength mark (front ++ rest))) =
      fun mark => (Kind.mark mark, markLength mark front) := by
    funext mark
    rw [(markLength_stable mark front).alone rest (h.mark mark)]
  unfold Lexical.candidates
  rw [commentLength_local front rest h.comment, textLength_local front rest h.text, hsigned,
    (numberLength_stable front).alone rest h.number,
    (capitalNameLength_stable_both front).1.alone rest h.capitalName, hword, hname,
    lineBreakLength_local front rest h.lineBreak, hmarks]

theorem le_longest (found : List (Kind × Nat)) :
    forall candidate, candidate ∈ found -> candidate.2 <= (longest found).elim 0 Prod.snd := by
  induction found with
  | nil => simp
  | cons first rest ih =>
      rcases first with ⟨kind, length⟩
      intro candidate hcandidate
      unfold longest
      cases hrest : longest rest with
      | none =>
          rw [hrest] at ih
          dsimp only
          rcases List.mem_cons.mp hcandidate with rfl | hmem
          · by_cases hnone : length = 0
            · simp [hnone]
            · simp [hnone]
          · have hle : candidate.2 <= 0 := ih candidate hmem
            omega
      | some best =>
          rcases best with ⟨other, most⟩
          rw [hrest] at ih
          dsimp only
          rcases List.mem_cons.mp hcandidate with rfl | hmem
          · by_cases hless : length < most
            · simp [hless, Nat.le_of_lt hless]
            · simp [hless]
          · have hle : candidate.2 <= most := ih candidate hmem
            by_cases hless : length < most
            · simpa [hless] using hle
            · simp [hless]
              omega

theorem within_of_head? (h : (head? signed (front ++ rest)).elim 0 Prod.snd <= front.length) :
    Within signed front rest := by
  have hall : forall candidate, candidate ∈ candidates signed (front ++ rest) ->
      candidate.2 <= front.length :=
    fun candidate hmem => Nat.le_trans (le_longest _ candidate hmem) h
  simp only [candidates, List.cons_append, List.nil_append, List.mem_cons, List.mem_map,
    forall_eq_or_imp, forall_exists_index, and_imp, forall_apply_eq_imp_iff₂] at hall
  rcases hall with ⟨hcomment, htext, hsigned, hnumber, hcapital, hname, hlineBreak, hmark⟩
  refine ⟨hcomment, htext, ?_, hnumber, hcapital, hname, hlineBreak, ?_⟩
  · intro htrue
    simpa [htrue] using hsigned
  · intro mark
    exact hmark mark (by cases mark <;> decide)

theorem head?_respaced (h : (head? signed (front ++ rest)).elim 0 Prod.snd <= front.length)
    (hrest : Respaced rest rest') (hne : front ≠ []) :
    head? signed (front ++ rest') = head? signed (front ++ rest) := by
  have hwithin := within_of_head? h
  unfold head?
  rw [hwithin.candidates, (hwithin.respaced hrest hne).candidates]

end Lexical
end Linewise
