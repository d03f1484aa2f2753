import Linewise.Proofs.Display.Spelling
import Linewise.Proofs.Respacing.Measure

/-!
# The shape of tokens

A comment is the rest of its line, and a text ends with the first quote behind the one it
begins with.  A name is a capital name if the pattern of capital names fits it, and that
pattern fits no front of any other name.
-/

namespace Linewise
namespace Lexical

/-!
## The pattern of capital names
-/

inductive WordTail : List Char -> Prop where
  | nil : WordTail []
  | word {c : Char} {cs : List Char} (hword : Text.isWordChar c = true) (rest : WordTail cs) :
      WordTail (c :: cs)
  | dash {c : Char} {cs : List Char} (hword : Text.isWordChar c = true) (rest : WordTail cs) :
      WordTail ('-' :: c :: cs)

/-- A capital letter and the rest of a word, perhaps a closing mark, and in front of them any
number of digits with a dash each. -/
inductive Capitalized : List Char -> Prop where
  | letter {c : Char} {word closing : List Char} (hupper : c.isUpper = true)
      (hword : WordTail word) (hclosing : closing = [] ∨ closing = ['!'] ∨ closing = ['?']) :
      Capitalized (c :: (word ++ closing))
  | digit {c : Char} {cs : List Char} (hdigit : Text.isDigit c = true) (rest : Capitalized cs) :
      Capitalized (c :: '-' :: cs)

theorem wordTail_take (cs : List Char) : WordTail (cs.take (wordTailLength cs)) := by
  fun_induction wordTailLength cs with
  | case1 => exact .nil
  | case2 c rest hword ih =>
      rw [Nat.add_comm, List.take_succ_cons]
      exact .word hword ih
  | case3 => exact .nil
  | case4 d rest hword _ ih =>
      rw [Nat.add_comm, List.take_succ_cons, List.take_succ_cons]
      exact .dash hword ih
  | case5 => exact .nil
  | case6 => exact .nil

theorem take_closingLength (cs : List Char) :
    cs.take (closingLength cs) = [] ∨ cs.take (closingLength cs) = ['!'] ∨
      cs.take (closingLength cs) = ['?'] := by
  cases cs with
  | nil => exact Or.inl rfl
  | cons c cs =>
      rw [closingLength]
      split
      · rename_i hmark
        rcases Bool.or_eq_true_iff.mp hmark with hmark | hmark
        · exact Or.inr (Or.inl (by rw [List.take_succ_cons, beq_iff_eq.mp hmark, List.take_zero]))
        · exact Or.inr (Or.inr (by rw [List.take_succ_cons, beq_iff_eq.mp hmark, List.take_zero]))
      · exact Or.inl rfl

theorem capitalized_take {cs : List Char} (h : 0 < capitalNameLength cs) :
    Capitalized (cs.take (capitalNameLength cs)) := by
  fun_induction capitalNameLength cs with
  | case1 => cases h
  | case2 c rest hupper =>
      rw [Nat.add_comm, List.take_succ_cons, nameTailLength, List.take_add]
      exact .letter hupper (wordTail_take rest) (take_closingLength _)
  | case3 => cases h
  | case4 c _ hdigit rest hsome ih =>
      rw [Nat.add_comm, List.take_succ_cons, List.take_succ_cons]
      exact .digit hdigit (ih (Nat.pos_of_ne_zero hsome))
  | case5 => cases h
  | case6 => cases h

theorem nameTailLength_dash (cs : List Char) :
    nameTailLength ('-' :: cs) = joined (nameLength cs) := by
  have hdash : Text.isWordChar '-' = false := by decide +kernel
  have hword : wordTailLength ('-' :: cs) = joined (wordLength cs) := by
    simp [wordTailLength_cons, hdash]
  simp only [nameTailLength, hword]
  cases cs with
  | nil => rfl
  | cons c cs =>
      by_cases hnext : Text.isWordChar c = true
      · have hlength : joined (wordLength (c :: cs)) = wordTailLength cs + 2 := by
          simp only [wordLength, hnext, if_true, joined]
          rw [if_neg (by omega)]
          omega
        have hname : nameLength (c :: cs) =
            1 + (wordTailLength cs + closingLength (cs.drop (wordTailLength cs))) := by
          simp only [nameLength, hnext, if_true, nameTailLength]
        rw [hlength, hname, List.drop_succ_cons, List.drop_succ_cons, joined, if_neg (by omega)]
        omega
      · have hlength : wordLength (c :: cs) = 0 := by simp [wordLength, hnext]
        have hname : nameLength (c :: cs) = 0 := by simp [nameLength, hnext]
        rw [hlength, hname]
        rfl

theorem nameLength_le_of_capitalized {front : List Char} (h : Capitalized front)
    (rest : List Char) : 0 < capitalNameLength (front ++ rest) ∧
      nameLength (front ++ rest) <= capitalNameLength (front ++ rest) := by
  have hname : forall (c : Char) (cs : List Char),
      nameLength (c :: cs) <= 1 + nameTailLength cs := by
    intro c cs
    rw [nameLength]
    split
    · exact Nat.le_refl _
    · exact Nat.zero_le _
  induction h with
  | @letter c word closing hupper _ _ =>
      rw [List.cons_append, capitalNameLength_cons, if_pos hupper]
      exact ⟨by omega, hname _ _⟩
  | @digit c cs hdigit _ ih =>
      rw [List.cons_append, List.cons_append, capitalNameLength_cons]
      have hle := hname c ('-' :: (cs ++ rest))
      by_cases hupper : c.isUpper = true
      · rw [if_pos hupper]
        exact ⟨by omega, hle⟩
      · rw [if_neg hupper, if_pos hdigit]
        rw [nameTailLength_dash] at hle
        have hdashed : dashedNameLength ('-' :: (cs ++ rest)) =
            1 + capitalNameLength (cs ++ rest) := by
          rw [dashedNameLength, if_pos rfl, joined, if_neg (by omega)]
        rw [hdashed, joined, if_neg (by omega)]
        have hjoined := joined_cases (nameLength (cs ++ rest))
        exact ⟨by omega, by omega⟩

/-!
## Shapes
-/

def Shape (kind : Kind) (cs : List Char) : Prop :=
  match kind with
  | .comment => exists body, cs = '-' :: '-' :: body ∧ '\n' ∉ body
  | .text => exists body, cs = '"' :: (body ++ ['"']) ∧ '"' ∉ body
  | .capitalName => Capitalized cs
  | .lowercaseName =>
      Kind.ofReserved? (String.ofList cs) = none ∧
        forall front, front <+: cs -> ¬ Capitalized front
  | _ => True

theorem not_mem_take_idxOf (a : Char) (cs : List Char) : a ∉ cs.take (cs.idxOf a) := by
  intro hmem
  have hlt := (List.mem_take_iff_idxOf_lt (List.mem_of_mem_take hmem)).mp hmem
  exact absurd hlt (Nat.lt_irrefl _)

theorem shape_comment {cs : List Char} (h : 0 < commentLength cs) :
    Shape .comment (cs.take (commentLength cs)) := by
  match cs with
  | [] => cases h
  | [_] => simp [commentLength] at h
  | c :: d :: cs =>
      by_cases hdashes : c = '-' ∧ d = '-'
      · rcases hdashes with ⟨rfl, rfl⟩
        refine ⟨cs.take (cs.idxOf '\n'), ?_, not_mem_take_idxOf '\n' cs⟩
        rw [commentLength_dashes, Nat.add_comm, List.take_succ_cons, List.take_succ_cons]
      · rw [commentLength_none hdashes] at h
        cases h

theorem shape_text {cs : List Char} (h : 0 < textLength cs) :
    Shape .text (cs.take (textLength cs)) := by
  cases cs with
  | nil => cases h
  | cons c cs =>
      by_cases hc : c = '"'
      · subst hc
        rw [textLength_quote] at h ⊢
        split at h
        · rename_i hquote
          have hlt := List.idxOf_lt_length_of_mem hquote
          refine ⟨cs.take (cs.idxOf '"'), ?_, not_mem_take_idxOf '"' cs⟩
          rw [if_pos hquote, List.take_succ_cons, List.take_succ_eq_append_getElem hlt,
            List.getElem_idxOf hlt]
        · cases h
      · rw [textLength_none hc] at h
        cases h

theorem mem_of_longest_le {before after : List (Kind × Nat)} {other kind : Kind}
    {length width : Nat} (h : longest (before ++ (other, length) :: after) = some (kind, width))
    (hle : width <= length) : (kind, width) ∈ before ++ [(other, length)] := by
  induction before with
  | nil =>
      rw [List.nil_append, longest] at h
      split at h
      · split at h
        · cases h
          omega
        · cases h
          exact List.mem_singleton_self _
      · split at h
        · cases h
        · cases h
          exact List.mem_singleton_self _
  | cons first before ih =>
      rw [List.cons_append, longest] at h
      split at h
      · rename_i hrest
        split at h
        · rw [hrest] at ih
          exact List.mem_cons_of_mem _ (ih h)
        · cases h
          exact List.mem_cons_self
      · split at h
        · cases h
        · cases h
          exact List.mem_cons_self

theorem not_capitalized_of_head? {signed : Bool} {cs front : List Char}
    (h : head? signed cs = some (.lowercaseName, nameLength cs)) (hfront : front <+: cs) :
    ¬ Capitalized front := by
  intro hcapital
  rcases hfront with ⟨rest, rfl⟩
  have hle := (nameLength_le_of_capitalized hcapital rest).2
  have hsplit : candidates signed (front ++ rest) =
      [(.comment, commentLength (front ++ rest)), (.text, textLength (front ++ rest)),
        (.number, if signed then signedNumberLength (front ++ rest) else 0),
        (.number, numberLength (front ++ rest))] ++
      (.capitalName, capitalNameLength (front ++ rest)) :: _ := rfl
  rw [head?, hsplit] at h
  have hmem := mem_of_longest_le h hle
  simp at hmem

theorem shape_of_head? {signed : Bool} {cs : List Char} {kind : Kind} {width : Nat}
    (h : head? signed cs = some (kind, width)) : Shape kind (cs.take width) := by
  rcases mem_of_longest h with ⟨hmem, hwidth⟩
  unfold candidates at hmem
  rcases List.mem_append.mp hmem with hclass | hmark
  · simp only [List.mem_cons, List.not_mem_nil, or_false, Prod.mk.injEq] at hclass
    rcases hclass with ⟨rfl, rfl⟩ | ⟨rfl, rfl⟩ | ⟨rfl, rfl⟩ | ⟨rfl, rfl⟩ | ⟨rfl, rfl⟩ |
      ⟨hkind, rfl⟩ | ⟨rfl, rfl⟩
    · exact shape_comment hwidth
    · exact shape_text hwidth
    · trivial
    · trivial
    · exact capitalized_take hwidth
    · cases hreserved : Kind.ofReserved? (String.ofList (cs.take (nameLength cs))) with
      | none =>
          rw [wordKind, hreserved] at hkind
          subst hkind
          refine ⟨hreserved, fun front hfront hcapital => ?_⟩
          exact not_capitalized_of_head? h (hfront.trans (List.take_prefix _ _)) hcapital
      | some found =>
          have hspelling := spelling_of_ofReserved? hreserved
          rw [wordKind, hreserved, Option.getD_some] at hkind
          rw [hkind]
          cases found with
          | mark mark => trivial
          | reserved word => trivial
          | _ => cases hspelling
    · trivial
  · rcases List.mem_map.mp hmark with ⟨mark, _, hpair⟩
    cases hpair
    trivial

theorem step_shape (source : String) (position : Nat) (last : Option Kind) (c : Char)
    (cs : List Char) :
    Shape (Token.ofItem source (step position last c cs).item).kind
      (Token.ofItem source (step position last c cs).item).value.toList := by
  unfold step
  split
  · rename_i kind width hhead
    simpa [Token.ofItem] using shape_of_head? hhead
  · trivial

end Lexical

theorem tokenize_shape {source : String} {t : Token} (h : t ∈ (tokenize source).1) :
    Lexical.Shape t.kind t.value.toList := by
  rcases List.mem_map.mp h with ⟨item, hitem, rfl⟩
  rcases Lexical.mem_items hitem with ⟨stop, rfl⟩ | ⟨position, last, c, cs, rfl⟩
  · trivial
  · exact Lexical.step_shape source position last c cs

end Linewise
