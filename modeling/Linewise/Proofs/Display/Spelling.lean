import Linewise.Proofs.Display.Reading
import Linewise.Proofs.Lexing

/-!
# Spelling of names and numbers

Names and numbers are made of word characters, digits and a few marks.  None of these is a
delimiter, so every name and number of a text is a plain word.
-/

namespace Linewise

def Kind.isRaw : Kind -> Bool
  | .capitalName => true
  | .lowercaseName => true
  | .number => true
  | _ => false

def Token.Plain (token : Token) : Prop := token.kind.isRaw = true -> Text.IsPlain token.value

namespace Lexical

/-!
## Measures
-/

def Undelimited (length : Nat) (cs : List Char) : Prop :=
  forall c, c ∈ cs.take length -> Text.isDelimiter c = false

theorem isDelimiter_eq_false {p : Char -> Bool} {c : Char} (hc : p c = true)
    (hspace : p ' ' = false) (hopen : p '(' = false) (hclose : p ')' = false)
    (hquote : p '"' = false) (hfeed : p '\n' = false) : Text.isDelimiter c = false := by
  cases hdelimiter : Text.isDelimiter c with
  | false => rfl
  | true =>
      simp only [Text.isDelimiter, Bool.or_eq_true, beq_iff_eq] at hdelimiter
      rcases hdelimiter with (((rfl | rfl) | rfl) | rfl) | rfl
      · exact absurd hc (by simp [hspace])
      · exact absurd hc (by simp [hopen])
      · exact absurd hc (by simp [hclose])
      · exact absurd hc (by simp [hquote])
      · exact absurd hc (by simp [hfeed])

theorem isDelimiter_wordChar {c : Char} (h : Text.isWordChar c = true) :
    Text.isDelimiter c = false := isDelimiter_eq_false h rfl rfl rfl rfl rfl

theorem isDelimiter_digit {c : Char} (h : Text.isDigit c = true) :
    Text.isDelimiter c = false := isDelimiter_wordChar (Text.isWordChar_of_isDigit h)

theorem isDelimiter_upper {c : Char} (h : c.isUpper = true) :
    Text.isDelimiter c = false := isDelimiter_eq_false h rfl rfl rfl rfl rfl

namespace Undelimited

variable {c : Char} {cs : List Char} {m n : Nat}

theorem zero (cs : List Char) : Undelimited 0 cs := by simp [Undelimited]

theorem cons (hc : Text.isDelimiter c = false) (h : Undelimited n cs) :
    Undelimited (1 + n) (c :: cs) := by
  intro d hd
  rw [Nat.add_comm, List.take_succ_cons] at hd
  rcases List.mem_cons.mp hd with rfl | hd
  · exact hc
  · exact h d hd

theorem add (hfirst : Undelimited m cs) (hsecond : Undelimited n (cs.drop m)) :
    Undelimited (m + n) cs := by
  intro d hd
  rw [List.take_add] at hd
  rcases List.mem_append.mp hd with hd | hd
  · exact hfirst d hd
  · exact hsecond d hd

theorem digits (cs : List Char) : Undelimited (digitsLength cs) cs := by
  induction cs with
  | nil => exact zero []
  | cons c cs ih =>
      cases hdigit : Text.isDigit c with
      | false => simpa [digitsLength, hdigit] using zero (c :: cs)
      | true =>
          have hlength : digitsLength (c :: cs) = 1 + digitsLength cs := by
            simp [digitsLength, hdigit, Nat.add_comm]
          rw [hlength]
          exact cons (isDelimiter_digit hdigit) ih

theorem fraction (cs : List Char) : Undelimited (fractionLength cs) cs := by
  unfold fractionLength
  split
  · rename_i rest
    split
    · exact zero _
    · exact cons rfl (digits rest)
  · exact zero _

theorem number (cs : List Char) : Undelimited (numberLength cs) cs := by
  unfold numberLength
  simp only
  split
  · exact zero cs
  · exact add (digits cs) (fraction _)

theorem signedNumber (cs : List Char) : Undelimited (signedNumberLength cs) cs := by
  unfold signedNumberLength
  split
  · exact zero []
  · rename_i c rest
    split
    · rename_i hsign
      have hsign := (Bool.and_eq_true_iff.mp hsign).1
      have hc := isDelimiter_eq_false (p := fun c => c == '+' || c == '-') hsign
        rfl rfl rfl rfl rfl
      exact cons hc (number rest)
    · exact zero _

theorem wordTail (cs : List Char) : Undelimited (wordTailLength cs) cs := by
  fun_induction wordTailLength cs with
  | case1 => exact zero []
  | case2 c rest hword ih => exact cons (isDelimiter_wordChar hword) ih
  | case3 => exact zero _
  | case4 d rest hword _ ih =>
      rw [show 2 + wordTailLength rest = 1 + (1 + wordTailLength rest) by omega]
      exact cons rfl (cons (isDelimiter_wordChar hword) ih)
  | case5 => exact zero _
  | case6 => exact zero _

theorem closing (cs : List Char) : Undelimited (closingLength cs) cs := by
  unfold closingLength
  split
  · exact zero []
  · rename_i c rest
    split
    · rename_i hmark
      have hc := isDelimiter_eq_false (p := fun c => c == '!' || c == '?') hmark
        rfl rfl rfl rfl rfl
      exact cons hc (zero rest)
    · exact zero _

theorem nameTail (cs : List Char) : Undelimited (nameTailLength cs) cs :=
  add (wordTail cs) (closing _)

theorem capitalName (cs : List Char) : Undelimited (capitalNameLength cs) cs := by
  fun_induction capitalNameLength cs with
  | case1 => exact zero []
  | case2 c rest hupper => exact cons (isDelimiter_upper hupper) (nameTail rest)
  | case3 => exact zero _
  | case4 c _ hdigit rest _ ih =>
      rw [show 2 + capitalNameLength rest = 1 + (1 + capitalNameLength rest) by omega]
      exact cons (isDelimiter_digit hdigit) (cons rfl ih)
  | case5 => exact zero _
  | case6 => exact zero _

theorem name (cs : List Char) : Undelimited (nameLength cs) cs := by
  unfold nameLength
  split
  · exact zero []
  · rename_i c rest
    split
    · rename_i hword
      exact cons (isDelimiter_wordChar hword) (nameTail rest)
    · exact zero _

end Undelimited

/-!
## Tokens
-/

theorem undelimited_of_head? {signed : Bool} {cs : List Char} {kind : Kind} {width : Nat}
    (h : head? signed cs = some (kind, width)) (hraw : kind.isRaw = true) :
    Undelimited width cs := by
  have hmem := (mem_of_longest h).1
  unfold candidates at hmem
  rcases List.mem_append.mp hmem with hclass | hmark
  · simp only [List.mem_cons, List.not_mem_nil, or_false, Prod.mk.injEq] at hclass
    rcases hclass with ⟨rfl, rfl⟩ | ⟨rfl, rfl⟩ | ⟨rfl, rfl⟩ | ⟨rfl, rfl⟩ | ⟨rfl, rfl⟩ |
      ⟨rfl, rfl⟩ | ⟨rfl, rfl⟩
    · cases hraw
    · cases hraw
    · split
      · exact .signedNumber cs
      · exact .zero cs
    · exact .number cs
    · exact .capitalName cs
    · exact .name cs
    · cases hraw
  · rcases List.mem_map.mp hmark with ⟨mark, _, hpair⟩
    cases hpair
    cases hraw

theorem step_plain (source : String) (position : Nat) (last : Option Kind) (c : Char)
    (cs : List Char) : (Token.ofItem source (step position last c cs).item).Plain := by
  unfold step
  split
  · rename_i kind width hhead
    intro hraw
    constructor
    · simpa [Token.ofItem, Undelimited] using undelimited_of_head? hhead hraw
    · have hwidth := width_pos hhead
      simp [Token.ofItem]
      omega
  · intro hraw
    cases hraw

theorem mem_items {position : Nat} {last : Option Kind} {skip : Nat} {cs : List Char}
    {item : Item} (h : item ∈ items position last skip cs) :
    (exists stop, item = .ok (Token.endAt stop)) ∨
      exists position last c cs, item = (step position last c cs).item := by
  induction cs generalizing position last skip with
  | nil =>
      unfold items at h
      exact .inl ⟨position, List.mem_singleton.mp h⟩
  | cons c cs ih =>
      cases skip with
      | succ skip => exact ih h
      | zero =>
          unfold items at h
          split at h
          · exact ih h
          · rcases List.mem_cons.mp h with hfirst | hrest
            · exact .inr ⟨position, last, c, cs, hfirst⟩
            · exact ih hrest

end Lexical

theorem tokenize_plain {source : String} {t : Token} (h : t ∈ (tokenize source).1) :
    t.Plain := by
  rcases List.mem_map.mp h with ⟨item, hitem, rfl⟩
  rcases Lexical.mem_items hitem with ⟨stop, rfl⟩ | ⟨position, last, c, cs, rfl⟩
  · intro hraw
    cases hraw
  · exact Lexical.step_plain source position last c cs

end Linewise
