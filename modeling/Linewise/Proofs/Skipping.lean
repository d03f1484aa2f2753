import Linewise.Proofs.Recovery

/-!
# Where skipping stops

Skipping the rest of a statement counts the brackets from the token at which the
statement failed.  If brackets of the statement are still open there, the count
starts too low.  It is compared here with the count that starts with all open
brackets, which is the one that stops outside of them.
-/

namespace Linewise
namespace Cursor

/-- Counting brackets from `depth`, no token of `skipped` ends the statement, and the
first token of `rest` does.  Comments are not looked at. -/
def Skips (terminator : Kind) : Nat -> List Token -> List Token -> Prop
  | depth, [], rest =>
      forall t, (rest.dropWhile Token.isComment).head? = some t ->
        endsStatement terminator depth t = true
  | depth, token :: skipped, rest =>
      if token.isComment then
        Skips terminator depth skipped rest
      else
        endsStatement terminator depth token = false ∧
          Skips terminator (bracketDepth depth token) skipped rest

variable {terminator : Kind} {depth : Nat}

theorem skips_comment {token : Token} {skipped rest : List Token}
    (h : token.isComment = true) :
    Skips terminator depth (token :: skipped) rest <-> Skips terminator depth skipped rest := by
  rw [Skips, if_pos h]

theorem skips_token {token : Token} {skipped rest : List Token}
    (h : token.isComment = false) :
    Skips terminator depth (token :: skipped) rest <->
      endsStatement terminator depth token = false ∧
        Skips terminator (bracketDepth depth token) skipped rest := by
  rw [Skips, if_neg (by simp [h])]

/-!
## What is skipped
-/

theorem skips_of_none {previous : Span} {tokens : List Token} {last : Token}
    (hlast : last.kind = .endOfInput)
    (h : afterStatement? terminator depth previous tokens = none) :
    Skips terminator depth [] (tokens ++ [last]) := by
  induction tokens with
  | nil =>
      intro t ht
      have hcomment : last.isComment = false := by simp [Token.isComment, hlast]
      have htoken : last = t := by simpa [hcomment] using ht
      rw [← htoken]
      simp [endsStatement, hlast]
  | cons token tokens ih =>
      unfold afterStatement? at h
      split at h
      · rename_i hcomment
        intro t ht
        rw [List.cons_append, List.dropWhile_cons_of_pos hcomment] at ht
        exact ih h t ht
      · rename_i hcomment
        split at h
        · rename_i hends
          intro t ht
          rw [List.cons_append, List.dropWhile_cons_of_neg hcomment, List.head?_cons] at ht
          cases ht
          exact hends
        · cases h

theorem skips_of_some {previous previous' : Span} {tokens rest : List Token} {last : Token}
    (hlast : last.kind = .endOfInput)
    (h : afterStatement? terminator depth previous tokens = some (rest, previous')) :
    exists skipped, tokens = skipped ++ rest ∧
      Skips terminator depth skipped (rest ++ [last]) := by
  induction tokens generalizing depth previous with
  | nil => cases h
  | cons token tokens ih =>
      unfold afterStatement? at h
      split at h
      · rename_i hcomment
        rcases ih h with ⟨skipped, htokens, hskips⟩
        exists token :: skipped
        constructor
        · rw [htokens, List.cons_append]
        · exact (skips_comment hcomment).mpr hskips
      · rename_i hcomment
        have hcomment : token.isComment = false := by simpa using hcomment
        split at h
        · cases h
        · rename_i hends
          have hends : endsStatement terminator depth token = false := by simpa using hends
          simp only [Option.some.injEq] at h
          cases hafter : afterStatement? terminator (bracketDepth depth token)
              (spanAfter previous token) tokens with
          | none =>
              rw [hafter, Option.getD_none, Prod.mk.injEq] at h
              rcases h with ⟨hrest, _⟩
              rw [← hrest]
              refine ⟨[token], rfl, (skips_token hcomment).mpr ⟨hends, ?_⟩⟩
              exact skips_of_none hlast hafter
          | some found =>
              rw [hafter, Option.getD_some] at h
              rw [h] at hafter
              rcases ih hafter with ⟨skipped, htokens, hskips⟩
              exists token :: skipped
              constructor
              · rw [htokens, List.cons_append]
              · exact (skips_token hcomment).mpr ⟨hends, hskips⟩

theorem skips_skipStatement {d : Cursor} {skipped : List Token}
    (hfinal : d.final.kind = .endOfInput)
    (passage : d.Passage skipped [] (d.skipStatement terminator)) :
    Skips terminator 0 skipped ((d.skipStatement terminator).ahead ++ [d.final]) := by
  have hahead := passage.ahead
  unfold skipStatement at hahead ⊢
  cases hafter : afterStatement? terminator 0 d.previous d.ahead with
  | none =>
      rw [hafter] at hahead
      have hnone : skipped = [] := by simpa using hahead
      rw [hnone]
      exact skips_of_none hfinal hafter
  | some found =>
      rcases found with ⟨rest, previous⟩
      rw [hafter] at hahead
      rcases skips_of_some hfinal hafter with ⟨skipped', htokens, hskips⟩
      have hsame : skipped' = skipped := by
        rw [htokens] at hahead
        exact List.append_cancel_right hahead
      rw [← hsame]
      exact hskips

end Cursor

/-!
## Counting and matching
-/

namespace Bracket

inductive Turn (kind : Kind) : Prop where
  | plain (hplain : plain kind = true) (hopens : kind.opensBracket = false)
      (hcloses : kind.closesBracket = false)
  | opens (bracket : Bracket) (hopened : kind.opened? = some bracket)
      (hopens : kind.opensBracket = true)
  | closes (bracket : Bracket) (hopened : kind.opened? = none)
      (hclosed : kind.closed? = some bracket) (hopens : kind.opensBracket = false)
      (hcloses : kind.closesBracket = true)

theorem turn (kind : Kind) : Turn kind := by
  cases kind with
  | mark found =>
      cases found with
      | openParen => exact .opens .round rfl rfl
      | openCurly => exact .opens .curly rfl rfl
      | openBracket => exact .opens .square rfl rfl
      | closeParen => exact .closes .round rfl rfl rfl rfl
      | closeCurly => exact .closes .curly rfl rfl rfl rfl
      | closeBracket => exact .closes .square rfl rfl rfl rfl
      | _ => exact .plain rfl rfl rfl
  | _ => exact .plain rfl rfl rfl

/-- Counting follows the stack as long as it fits. -/
theorem bracketDepth_length {stack stack' : List Bracket} {token : Token}
    (h : step stack token.kind = some stack') :
    Cursor.bracketDepth stack.length token = stack'.length := by
  cases turn token.kind with
  | plain hplain hopens hcloses =>
      rw [step_plain hplain] at h
      cases h
      simp [Cursor.bracketDepth, hopens, hcloses]
  | opens bracket hopened hopens =>
      simp only [step, hopened, Option.some.injEq] at h
      simp [Cursor.bracketDepth, hopens, ← h]
  | closes bracket hopened hclosed hopens hcloses =>
      cases stack with
      | nil => simp [step, hopened, hclosed] at h
      | cons top below =>
          simp only [step, hopened, hclosed] at h
          split at h
          · cases h
            simp [Cursor.bracketDepth, hopens, hcloses]
          · cases h

theorem bracketDepth_le {m n : Nat} (h : m <= n) (token : Token) :
    Cursor.bracketDepth m token <= Cursor.bracketDepth n token := by
  unfold Cursor.bracketDepth
  split
  · omega
  · split
    · omega
    · exact h

theorem plain_of_isComment {token : Token} (h : token.isComment = true) :
    plain token.kind = true := by
  have hkind : token.kind = .comment := by simpa [Token.isComment] using h
  rw [hkind]
  rfl

theorem endsStatement_of_le {terminator : Kind} {m n : Nat} {token : Token} (hle : m <= n)
    (h : Cursor.endsStatement terminator m token = false) :
    Cursor.endsStatement terminator n token = false := by
  cases n with
  | zero =>
      have hm : m = 0 := Nat.le_zero.mp hle
      rwa [hm] at h
  | succ n =>
      have hend : (token.kind == .endOfInput) = false := by
        unfold Cursor.endsStatement at h
        exact (Bool.or_eq_false_iff.mp h).1
      simp [Cursor.endsStatement, hend]

theorem skips_of_unwind {terminator : Kind} {skipped rest : List Token}
    {stack : List Bracket} {count : Nat} (hcount : count <= stack.length)
    (hskipped : unwind stack (skipped.map Token.kind) = some [])
    (h : Cursor.Skips terminator count skipped rest) :
    Cursor.Skips terminator stack.length skipped rest := by
  induction skipped generalizing stack count with
  | nil =>
      cases hskipped
      have hzero : count = 0 := Nat.le_zero.mp hcount
      rw [hzero] at h
      exact h
  | cons token skipped ih =>
      rw [List.map_cons, unwind_cons] at hskipped
      cases hcomment : token.isComment with
      | true =>
          rw [step_plain (plain_of_isComment hcomment)] at hskipped
          rw [Cursor.skips_comment hcomment] at h ⊢
          exact ih hcount hskipped h
      | false =>
          rw [Cursor.skips_token hcomment] at h ⊢
          cases hstep : step stack token.kind with
          | none =>
              rw [hstep] at hskipped
              cases hskipped
          | some stack' =>
              rw [hstep] at hskipped
              have hlength := bracketDepth_length hstep
              have hle := bracketDepth_le hcount token
              rw [hlength] at hle ⊢
              exact ⟨endsStatement_of_le hcount h.1, ih hle hskipped h.2⟩

/-- The brackets around a list: a list in braces stands in a curly bracket, and the
statements of a file in none. -/
def Surrounds (terminator : Kind) (stack : List Bracket) : Prop :=
  (terminator = .mark .closeCurly ∧ exists below, stack = .curly :: below) ∨
    (terminator = .endOfInput ∧ stack = [])

theorem kind_of_closed {kind : Kind} (h : kind.closed? = some .curly) :
    kind = .mark .closeCurly := by
  cases kind with
  | mark found => cases found <;> first | rfl | cases h
  | _ => cases h

/-- A bracket of the list itself closes only where the list ends. -/
theorem endsStatement_of_step {terminator : Kind} {stack stack' : List Bracket}
    {token : Token} {bracket : Bracket} (hstack : Surrounds terminator stack)
    (hopened : token.kind.opened? = none) (hclosed : token.kind.closed? = some bracket)
    (h : step stack token.kind = some stack') :
    Cursor.endsStatement terminator 0 token = true := by
  rcases hstack with ⟨hterminator, below, hbelow⟩ | ⟨_, hnone⟩
  · rw [hbelow] at h
    simp only [step, hopened, hclosed] at h
    split at h
    · rename_i hcurly
      rw [← hcurly] at hclosed
      simp [Cursor.endsStatement, hterminator, kind_of_closed hclosed]
    · cases h
  · rw [hnone] at h
    simp [step, hopened, hclosed] at h

/-- Inside of a bracket only the end of the input stops the count. -/
theorem isComment_of_skips {terminator : Kind} {rest : List Token} {last : Token} {count : Nat}
    (hinside : forall t, t ∈ rest -> t.kind ≠ .endOfInput) (hcount : 0 < count)
    (h : Cursor.Skips terminator count [] (rest ++ [last])) :
    forall t, t ∈ rest -> t.isComment = true := by
  have hsplit := List.takeWhile_append_dropWhile (p := Token.isComment) (l := rest)
  cases hdrop : rest.dropWhile Token.isComment with
  | nil =>
      intro t ht
      rw [← hsplit, hdrop, List.append_nil] at ht
      exact List.all_eq_true.mp List.all_takeWhile t ht
  | cons first more =>
      have hhead : ((rest ++ [last]).dropWhile Token.isComment).head? = some first := by
        rw [List.dropWhile_append, hdrop]
        rfl
      have hends := h first hhead
      have hzero : (count == 0) = false := by simpa using Nat.ne_of_gt hcount
      have hkind : first.kind = .endOfInput := by
        simpa [Cursor.endsStatement, hzero] using hends
      have hmem : first ∈ rest := by
        rw [← hsplit, hdrop]
        simp
      exact absurd hkind (hinside first hmem)

theorem unwind_of_skips {terminator : Kind} {skipped rest : List Token} {last : Token}
    {stack outer : List Bracket} (houter : Surrounds terminator outer)
    (hinside : forall t, t ∈ rest -> t.kind ≠ .endOfInput)
    (hrest : unwind (stack ++ outer) ((skipped ++ rest).map Token.kind) = some [])
    (h : Cursor.Skips terminator stack.length skipped (rest ++ [last])) :
    unwind stack (skipped.map Token.kind) = some [] := by
  induction skipped generalizing stack with
  | nil =>
      cases stack with
      | nil => rfl
      | cons bracket stack =>
          have hcomments := isComment_of_skips hinside (Nat.succ_pos _) h
          rw [List.nil_append, unwind_plain] at hrest
          · cases hrest
          · intro kind hkind
            rcases List.mem_map.mp hkind with ⟨t, ht, htkind⟩
            rw [← htkind]
            exact plain_of_isComment (hcomments t ht)
  | cons token skipped ih =>
      rw [List.cons_append, List.map_cons, unwind_cons] at hrest
      rw [List.map_cons, unwind_cons]
      cases hcomment : token.isComment with
      | true =>
          have hplain := plain_of_isComment hcomment
          rw [step_plain hplain] at hrest ⊢
          exact ih hrest ((Cursor.skips_comment hcomment).mp h)
      | false =>
          rcases (Cursor.skips_token hcomment).mp h with ⟨hends, hskips⟩
          cases hstep : step stack token.kind with
          | some stack' =>
              rw [step_append outer hstep] at hrest
              rw [bracketDepth_length hstep] at hskips
              exact ih hrest hskips
          -- The token does not fit `stack`.  With nothing open it closes what is around the
          -- statement, and the skipping ends in front of it; otherwise the text is not matched.
          | none =>
              exfalso
              cases turn token.kind with
              | plain hplain hopens hcloses =>
                  rw [step_plain hplain] at hstep
                  cases hstep
              | opens bracket hopened hopens => simp [step, hopened] at hstep
              | closes bracket hopened hclosed hopens hcloses =>
                  cases stack with
                  | nil =>
                      rcases Option.bind_eq_some_iff.mp hrest with ⟨stack', houter', _⟩
                      have hend := endsStatement_of_step houter hopened hclosed houter'
                      rw [List.length_nil, hend] at hends
                      cases hends
                  | cons top below =>
                      have hnone : step ((top :: below) ++ outer) token.kind = none := by
                        simpa [step, hopened, hclosed] using hstep
                      rw [hnone] at hrest
                      cases hrest

end Bracket
end Linewise
