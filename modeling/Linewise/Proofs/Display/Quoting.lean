import Linewise.Text.Quoted
import Mathlib.Tactic.SplitIfs

/-!
# Reading quoted text back

What is written between quotes can be read back, together with what follows the closing
quote.  So two quoted texts that begin the same row of characters are the same text.
-/

namespace Linewise
namespace Text

def digitValue (c : Char) : Nat := if c.isDigit then c.toNat - 48 else c.toNat - 87

def unescaped (c : Char) : Char :=
  if c = 't' then '\t'
  else if c = 'r' then '\r'
  else if c = 'n' then '\n'
  else if c = '0' then '\x00'
  else c

def behindChar (c : Char) : Option (List Char × List Char) -> Option (List Char × List Char)
  | some (text, rest) => some (c :: text, rest)
  | none => none

inductive Quotation where
  | plain
  /-- Behind a backslash. -/
  | escape
  /-- Behind a backslash and the letter `u`. -/
  | brace
  /-- Inside the braces of a code point, with the value of its digits so far. -/
  | code (value : Nat)

def unquote? : Quotation -> List Char -> Option (List Char × List Char)
  | _, [] => none
  | .plain, c :: rest =>
      if c = '"' then some ([], rest)
      else if c = '\\' then unquote? .escape rest
      else behindChar c (unquote? .plain rest)
  | .escape, c :: rest =>
      if c = 'u' then unquote? .brace rest
      else behindChar (unescaped c) (unquote? .plain rest)
  | .brace, _ :: rest => unquote? (.code 0) rest
  | .code value, c :: rest =>
      if c = '\x7d' then behindChar (Char.ofNat value) (unquote? .plain rest)
      else unquote? (.code (value * 16 + digitValue c)) rest

theorem digitValue_digitChar {n : Nat} (h : n < 16) :
    digitValue n.digitChar = n ∧ n.digitChar ≠ '\x7d' := by
  have hall : forall n : Fin 16,
      digitValue n.val.digitChar = n.val ∧ n.val.digitChar ≠ '\x7d' := by decide
  exact hall ⟨n, h⟩

theorem unquote?_toDigits (n : Nat) (rest : List Char) :
    unquote? (.code 0) (Nat.toDigits 16 n ++ rest) = unquote? (.code n) rest := by
  induction n using Nat.strongRecOn generalizing rest with
  | ind n ih =>
      rw [Nat.toDigits_eq_if (by omega)]
      split
      · rename_i hlt
        rcases digitValue_digitChar hlt with ⟨hvalue, hbrace⟩
        rw [List.singleton_append, unquote?, if_neg hbrace, hvalue, Nat.zero_mul, Nat.zero_add]
      · rename_i hge
        rcases digitValue_digitChar (Nat.mod_lt n (by omega : 0 < 16)) with ⟨hvalue, hbrace⟩
        rw [List.append_assoc, ih (n / 16) (by omega), List.singleton_append, unquote?,
          if_neg hbrace, hvalue, Nat.div_add_mod']

theorem unquote?_escapedCode (c : Char) (rest : List Char) :
    unquote? .plain (escapedCode c ++ rest) = behindChar c (unquote? .plain rest) := by
  have hinner : unquote? .plain (escapedCode c ++ rest) =
      unquote? (.code 0) (Nat.toDigits 16 c.toNat ++ ('\x7d' :: rest)) := by
    simp [escapedCode, unquote?]
  rw [hinner, unquote?_toDigits, unquote?, if_pos rfl, Char.ofNat_toNat]

theorem unquote?_quotedChar (c : Char) (rest : List Char) :
    unquote? .plain (quotedChar c ++ rest) = behindChar c (unquote? .plain rest) := by
  unfold quotedChar
  split_ifs with htab hreturn hfeed hzero hbackslash hquote hhidden
  · simp [unquote?, unescaped, htab]
  · simp [unquote?, unescaped, hreturn]
  · simp [unquote?, unescaped, hfeed]
  · simp [unquote?, unescaped, hzero]
  · simp [unquote?, unescaped, hbackslash]
  · simp [unquote?, unescaped, hquote]
  · exact unquote?_escapedCode c rest
  · simp [unquote?, hbackslash, hquote]

theorem unquote?_quotedChars (cs rest : List Char) :
    unquote? .plain (quotedChars cs ++ '"' :: rest) = some (cs, rest) := by
  induction cs with
  | nil => simp [quotedChars, unquote?]
  | cons c cs ih =>
      rw [quotedChars, List.append_assoc, unquote?_quotedChar, ih]
      rfl

def unquoted (text : String) : String :=
  match unquote? .plain text.toList.tail with
  | some (inner, _) => String.ofList inner
  | none => text

@[simp] theorem unquoted_quoted (text : String) : unquoted (quoted text) = text := by
  simp [unquoted, quoted, unquote?_quotedChars]

/-- Of two quoted texts, only one can begin a row of characters. -/
theorem quoted_cancel {a b : String} {rest rest' : List Char}
    (h : (quoted a).toList ++ rest = (quoted b).toList ++ rest') : a = b ∧ rest = rest' := by
  simp only [quoted, String.toList_ofList, List.cons_append, List.append_assoc,
    List.nil_append, List.cons.injEq, true_and] at h
  have hread := congrArg (unquote? .plain) h
  rw [unquote?_quotedChars, unquote?_quotedChars, Option.some.injEq, Prod.mk.injEq] at hread
  exact ⟨String.toList_inj.mp hread.1, hread.2⟩

end Text
end Linewise
