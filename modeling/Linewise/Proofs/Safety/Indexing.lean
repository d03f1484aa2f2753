import Linewise.Proofs.Nesting.Statement
import Linewise.Proofs.Safety.Scanning
import Linewise.Proofs.Yield

/-!
# Tokens by their index

A cursor holds the tokens that are ahead.  The same can be done with an index into a list
of all tokens, where every access may be out of range.  A cursor that stands in the list
stays in it at every moment of reading, so all accesses are in range and tell what the
cursor tells.
-/

namespace Linewise

/-!
## Access by index
-/

namespace Indexed

def significant? (tokens : List Token) (index : Nat) : Option Nat :=
  match tokens[index]? with
  | none => none
  | some token =>
      if token.isComment = true ∧ index + 1 < tokens.length then
        significant? tokens (index + 1)
      else
        some index
termination_by tokens.length - index

def current? (tokens : List Token) (index : Nat) : Option Token :=
  match significant? tokens index with
  | none => none
  | some found => tokens[found]?

def peek? (tokens : List Token) (index : Nat) : Option Token :=
  match significant? tokens index with
  | none => none
  | some found =>
      if found + 1 < tokens.length then current? tokens (found + 1) else tokens[found]?

def advance? (tokens : List Token) (index : Nat) : Option Nat :=
  match significant? tokens index with
  | none => none
  | some found =>
      match tokens[found]? with
      | none => none
      | some token => if token.kind = .endOfInput then some found else some (found + 1)

def tokensAhead? (tokens : List Token) (index : Nat) : Option (List Token) :=
  match significant? tokens index with
  | none => none
  | some found =>
      if found <= tokens.length then
        some ((tokens.drop found).filter (fun token => !token.isComment))
      else
        none

def leadingComments? (tokens : List Token) (index : Nat) : Option (List Lexeme × Nat) :=
  match _hindex : tokens[index]? with
  | none => none
  | some token =>
      if Cursor.isTrivia token then
        match leadingComments? tokens (index + 1) with
        | none => none
        | some (comments, behind) =>
            if token.isComment then
              some (Cursor.commentLexeme token :: comments, behind)
            else
              some (comments, behind)
      else
        some ([], index)
termination_by tokens.length - index
decreasing_by
  have hindex := (List.getElem?_eq_some_iff.mp _hindex).1
  omega

variable {tokens ahead : List Token} {final : Token} {index : Nat}

theorem getElem?_of_drop {token : Token} {rest : List Token}
    (h : tokens.drop index = token :: rest) :
    tokens[index]? = some token ∧ tokens.drop (index + 1) = rest := by
  constructor
  · rw [← List.head?_drop, h, List.head?_cons]
  · rw [← List.tail_drop, h, List.tail_cons]

theorem significant?_of_drop (h : tokens.drop index = ahead ++ [final])
    (hfinal : final.isComment = false) :
    exists found, significant? tokens index = some found ∧
      tokens.drop found = ahead.dropWhile Token.isComment ++ [final] := by
  induction ahead generalizing index with
  | nil =>
      rcases getElem?_of_drop h with ⟨hget, _⟩
      refine ⟨index, ?_, h⟩
      rw [significant?, hget]
      simp [hfinal]
  | cons token rest ih =>
      have hget := (getElem?_of_drop h).1
      have hrest : tokens.drop (index + 1) = rest ++ [final] := (getElem?_of_drop h).2
      by_cases hcomment : token.isComment = true
      · have hlength : index + 1 < tokens.length := by
          have hpos := congrArg List.length hrest
          simp only [List.length_drop, List.length_append, List.length_singleton] at hpos
          omega
        rw [significant?, hget, List.dropWhile_cons_of_pos hcomment]
        simp only [hcomment, hlength, and_self, if_true]
        exact ih hrest
      · refine ⟨index, ?_, ?_⟩
        · rw [significant?, hget]
          simp [hcomment]
        · rw [List.dropWhile_cons_of_neg hcomment]
          exact h

theorem leadingComments?_of_drop (h : tokens.drop index = ahead ++ [final])
    (hfinal : Cursor.isTrivia final = false) :
    exists behind, leadingComments? tokens index = some
        (((ahead.takeWhile Cursor.isTrivia).filter Token.isComment).map Cursor.commentLexeme,
          behind) ∧
      tokens.drop behind = ahead.dropWhile Cursor.isTrivia ++ [final] := by
  induction ahead generalizing index with
  | nil =>
      rcases getElem?_of_drop h with ⟨hget, _⟩
      refine ⟨index, ?_, h⟩
      rw [leadingComments?, hget]
      simp [hfinal]
  | cons token rest ih =>
      have hget := (getElem?_of_drop h).1
      have hrest : tokens.drop (index + 1) = rest ++ [final] := (getElem?_of_drop h).2
      by_cases htrivia : Cursor.isTrivia token = true
      · rcases ih hrest with ⟨behind, hbehind, hdrop⟩
        refine ⟨behind, ?_, ?_⟩
        · rw [leadingComments?, hget]
          cases hcomment : token.isComment <;>
            simp [htrivia, hbehind, hcomment]
        · rw [List.dropWhile_cons_of_pos htrivia]
          exact hdrop
      · refine ⟨index, ?_, ?_⟩
        · rw [leadingComments?, hget]
          simp [htrivia]
        · rw [List.dropWhile_cons_of_neg htrivia]
          exact h

end Indexed

/-!
## A cursor and an index
-/

/-- The cursor stands at the index in the list of all tokens. -/
structure Cursor.StandsAt (tokens : List Token) (index : Nat) (c : Cursor) : Prop where
  drop : tokens.drop index = c.ahead ++ [c.final]
  final : c.final.kind = .endOfInput

/-- All accesses from the index are in range, and they tell what the cursor tells. -/
structure Cursor.InRange (tokens : List Token) (index : Nat) (c : Cursor) : Prop where
  current : Indexed.current? tokens index = some c.current
  peek : Indexed.peek? tokens index = some c.peek
  tokensAhead : Indexed.tokensAhead? tokens index = some c.tokensAhead
  advance : exists behind, Indexed.advance? tokens index = some behind ∧
    c.advance.StandsAt tokens behind
  leadingComments : exists behind,
    Indexed.leadingComments? tokens index = some (c.leadingComments, behind) ∧
      c.skipTrivia.StandsAt tokens behind

namespace Cursor.StandsAt

open Indexed

variable {tokens : List Token} {index : Nat} {c : Cursor}

theorem isComment_final (h : c.StandsAt tokens index) : c.final.isComment = false := by
  simp [Token.isComment, h.final]

theorem isTrivia_final (h : c.StandsAt tokens index) : isTrivia c.final = false := by
  simp [isTrivia, Token.isComment, Token.isLineBreak, h.final]

theorem significant? (h : c.StandsAt tokens index) :
    exists found, Indexed.significant? tokens index = some found ∧
      tokens.drop found = c.significant ++ [c.final] :=
  significant?_of_drop h.drop h.isComment_final

theorem current? (h : c.StandsAt tokens index) :
    Indexed.current? tokens index = some c.current := by
  rcases h.significant? with ⟨found, hfound, hdrop⟩
  rw [Indexed.current?, hfound]
  dsimp only
  cases hs : c.significant with
  | nil =>
      rw [hs] at hdrop
      rw [current_eq_final hs]
      exact (getElem?_of_drop hdrop).1
  | cons token rest =>
      rw [hs] at hdrop
      rw [current_eq hs]
      exact (getElem?_of_drop hdrop).1

theorem peek? (h : c.StandsAt tokens index) : Indexed.peek? tokens index = some c.peek := by
  rcases h.significant? with ⟨found, hfound, hdrop⟩
  rw [Indexed.peek?, hfound, Cursor.peek]
  dsimp only
  cases hs : c.significant with
  | nil =>
      rw [hs] at hdrop
      have hlength : ¬ found + 1 < tokens.length := by
        have hone := congrArg List.length hdrop
        simp only [List.length_drop, List.nil_append, List.length_singleton] at hone
        omega
      rw [if_neg hlength]
      exact (getElem?_of_drop hdrop).1
  | cons token rest =>
      rw [hs] at hdrop
      have hrest : tokens.drop (found + 1) = rest ++ [c.final] := (getElem?_of_drop hdrop).2
      have hlength : found + 1 < tokens.length := by
        have hmore := congrArg List.length hrest
        simp only [List.length_drop, List.length_append, List.length_singleton] at hmore
        omega
      rw [if_pos hlength]
      have hstands : StandsAt tokens (found + 1) { c with ahead := rest } := ⟨hrest, h.final⟩
      exact hstands.current?

theorem tokensAhead? (h : c.StandsAt tokens index) :
    Indexed.tokensAhead? tokens index = some c.tokensAhead := by
  rcases h.significant? with ⟨found, hfound, hdrop⟩
  have hlength : found <= tokens.length := by
    have hmore := congrArg List.length hdrop
    simp only [List.length_drop, List.length_append, List.length_singleton] at hmore
    omega
  have hcomments :
      (c.ahead.takeWhile Token.isComment).filter (fun token => !token.isComment) = [] := by
    rw [List.filter_eq_nil_iff]
    intro token htoken
    simp [List.all_eq_true.mp List.all_takeWhile token htoken]
  have hahead := congrArg (List.filter (fun token => !token.isComment)) c.ahead_eq_significant
  rw [List.filter_append, hcomments, List.nil_append] at hahead
  rw [Indexed.tokensAhead?, hfound]
  simp [hlength, hdrop, Cursor.tokensAhead, hahead, h.isComment_final]

theorem advance? (h : c.StandsAt tokens index) :
    exists behind, Indexed.advance? tokens index = some behind ∧
      c.advance.StandsAt tokens behind := by
  rcases h.significant? with ⟨found, hfound, hdrop⟩
  rw [Indexed.advance?, hfound]
  dsimp only
  cases hs : c.significant with
  | nil =>
      rw [hs] at hdrop
      refine ⟨found, ?_, ?_, ?_⟩
      · rw [(getElem?_of_drop hdrop).1]
        simp [h.final]
      · simpa [Cursor.advance, hs] using hdrop
      · simpa [Cursor.advance, hs] using h.final
  | cons token rest =>
      rw [hs] at hdrop
      have hget := (getElem?_of_drop hdrop).1
      have hrest : tokens.drop (found + 1) = rest ++ [c.final] := (getElem?_of_drop hdrop).2
      rw [hget]
      by_cases hkind : token.kind = .endOfInput
      · refine ⟨found, by simp [hkind], ?_, ?_⟩
        · simpa [Cursor.advance, hs, hkind] using hdrop
        · simpa [Cursor.advance, hs, hkind] using h.final
      · refine ⟨found + 1, by simp [hkind], ?_, ?_⟩
        · simpa [Cursor.advance, hs, hkind] using hrest
        · simpa [Cursor.advance, hs, hkind] using h.final

theorem leadingComments? (h : c.StandsAt tokens index) :
    exists behind, Indexed.leadingComments? tokens index = some (c.leadingComments, behind) ∧
      c.skipTrivia.StandsAt tokens behind := by
  rcases leadingComments?_of_drop h.drop h.isTrivia_final with ⟨behind, hbehind, hdrop⟩
  exact ⟨behind, hbehind, hdrop, h.final⟩

theorem inRange (h : c.StandsAt tokens index) : c.InRange tokens index :=
  ⟨h.current?, h.peek?, h.tokensAhead?, h.advance?, h.leadingComments?⟩

end Cursor.StandsAt

/-!
## Every moment of reading
-/

theorem Parser.stable_standsAt (tokens : List Token) (final : Token) :
    Parser.Stable (fun c => c.final = final ∧ exists index, c.StandsAt tokens index) where
  advance := by
    rintro c ⟨hfinal, index, h⟩
    rcases h.advance? with ⟨behind, _, hbehind⟩
    exact ⟨(advance_keeps c).1.trans hfinal, behind, hbehind⟩
  skipTrivia := by
    rintro c ⟨hfinal, index, h⟩
    rcases h.leadingComments? with ⟨behind, _, hbehind⟩
    exact ⟨hfinal, behind, hbehind⟩
  record := by
    rintro c diagnostic ⟨hfinal, index, h⟩
    exact ⟨hfinal, index, h.drop, h.final⟩
  restore := by
    rintro c d ⟨hfinal, index, h⟩ ⟨hfinal', index', h'⟩
    refine ⟨hfinal', index, ?_, h'.final⟩
    have hdrop := h.drop
    rw [hfinal, ← hfinal'] at hdrop
    exact hdrop
  opened := by
    rintro c ⟨hfinal, index, h⟩ _
    exact ⟨hfinal, index, h.drop, h.final⟩
  closed := by
    rintro c depth ⟨hfinal, index, h⟩ _
    exact ⟨hfinal, index, h.drop, h.final⟩

/-!
## Parts of a run
-/

namespace Parser

/-- Running a parser from a cursor runs a part of it, from a cursor of its own. -/
inductive Runs {β : Type} (part : Parser β) (d : Cursor) :
    {α : Type} -> Parser α -> Cursor -> Prop where
  | self : Runs part d part d
  | first {α γ : Type} {parser : Parser α} {next : α -> Parser γ} {c : Cursor}
      (h : Runs part d parser c) : Runs part d (parser >>= next) c
  | next {α γ : Type} {parser : Parser α} {next : α -> Parser γ} {c e : Cursor} {value : α}
      (hparser : parser c = .ok value e) (h : Runs part d (next value) e) :
      Runs part d (parser >>= next) c
  | choose {α : Type} {yes no : Parser α} {test : Cursor -> Bool} {c : Cursor}
      (h : Runs part d (if test c then yes else no) c) :
      Runs part d (fun cursor => if test cursor then yes cursor else no cursor) c
  | speculate {α : Type} {parser : Parser α} {c : Cursor} (h : Runs part d parser c) :
      Runs part d (Parser.speculate parser) c
  | nested {α : Type} {parser : Parser α} {c : Cursor} (hdepth : c.depth < maxDepth)
      (h : Runs part d parser { c with depth := c.depth + 1 }) :
      Runs part d (Parser.nested parser) c
  | recovering {terminator : Kind} {parser : Parser Statement} {c : Cursor}
      (h : Runs part d parser c) : Runs part d (Grammar.recovering terminator parser) c

/-- A fault is passed on, so a parser that meets none has no part that does. -/
theorem Runs.no_fault {α β : Type} {part : Parser β} {parser : Parser α} {c d : Cursor}
    (h : Runs part d parser c) (hparser : forall fault, parser c ≠ .fault fault) :
    forall fault, part d ≠ .fault fault := by
  induction h with
  | self => exact hparser
  | first h ih =>
      apply ih
      intro fault hfault
      apply hparser fault
      rw [bind_apply, hfault]
  | next hvalue h ih =>
      apply ih
      intro fault hfault
      apply hparser fault
      rw [bind_apply, hvalue]
      exact hfault
  | @choose _ yes no test c h ih =>
      apply ih
      intro fault hfault
      apply hparser fault
      cases htest : test c <;> simpa [htest] using hfault
  | speculate h ih =>
      apply ih
      intro fault hfault
      apply hparser fault
      rw [Parser.speculate, hfault]
  | nested hdepth h ih =>
      apply ih
      intro fault hfault
      apply hparser fault
      rw [Parser.nested, if_pos hdepth, hfault, closeLevel]
  | recovering h ih =>
      apply ih
      intro fault hfault
      apply hparser fault
      rw [Grammar.recovering, hfault]

end Parser

/-!
## Every source text
-/

theorem Cursor.standsAt_ofTokens {tokens : List Token} {last : Token}
    (h : last.kind = .endOfInput) :
    (Cursor.ofTokens (tokens ++ [last])).StandsAt (tokens ++ [last]) 0 where
  drop := by rw [ahead_ofTokens h, final_ofTokens_append h, List.drop_zero]
  final := Cursor.final_ofTokens _

open Linewise.Parser (Visits Runs)

/-- Whatever the source text, nothing that could fail to have an answer is ever asked for.
The scanner cuts the text between characters and gives out its items.  Reading the tokens
gives a file.  No part of it meets a fault: a text token can always be cut behind its first
quote and in front of its last, and no level is closed that is not open.  At every moment
all accesses to tokens are in range. -/
theorem parse_never_faults (source : String) :
    (Scanner.ofSource source).Gives (itemsOf source) ∧
    (exists parsed, parse source = .ok parsed) ∧
    (forall (β : Type) (part : Parser β) (d : Cursor),
      Runs part d (Grammar.statements Level.outermost .endOfInput)
        (Cursor.ofTokens (tokenize source).1) -> forall fault, part d ≠ .fault fault) ∧
    (forall t, t ∈ (tokenize source).1 -> t.kind = .text ->
      exists value, Grammar.unquoted? t.value = some value) ∧
    (exists moments, Visits (Grammar.statements Level.outermost .endOfInput)
      (Cursor.ofTokens (tokenize source).1) moments) ∧
    forall moments, Visits (Grammar.statements Level.outermost .endOfInput)
      (Cursor.ofTokens (tokenize source).1) moments ->
        forall m, m ∈ moments -> exists index, m.InRange (tokenize source).1 index := by
  have hquoted : forall t, t ∈ (tokenize source).1 -> t.Quoted :=
    fun _ ht => (admits_tokenize ht).2
  have hfits : plainRecovery.Fits (Cursor.ofTokens (tokenize source).1) :=
    ⟨fun t ht => hquoted t (Cursor.mem_of_mem_ahead ht), Cursor.final_ofTokens _⟩
  rcases parseTokens_lists plainRecovery hfits with ⟨parsed, _, _, hparsed, _⟩
  refine ⟨Scanner.gives_ofSource source, ⟨_, parse_eq hparsed⟩, ?_, ?_, ?_, ?_⟩
  · intro β part d hruns
    apply hruns.no_fault
    intro fault hfault
    rw [parseTokens, hfault] at hparsed
    cases hparsed
  · intro t ht hkind
    rcases hquoted t ht hkind with ⟨value, hvalue⟩
    rw [hvalue]
    exact ⟨value, Account.unquoted?_quoted value⟩
  · exact (Grammar.statements_makes (Grammar.bounded_ofRoom Parser.maxDepth) _).visits _
  · intro moments hvisits m hm
    rcases tokenize_wellFormed source with ⟨body, stop, htokens, _⟩
    rw [htokens] at hvisits ⊢
    have hstart : (Cursor.ofTokens (body ++ [Token.endAt stop])).StandsAt _ 0 :=
      Cursor.standsAt_ofTokens rfl
    rcases hvisits.preserves (Parser.stable_standsAt _ _) ⟨rfl, 0, hstart⟩ m hm with
      ⟨_, index, hstands⟩
    exact ⟨index, hstands.inRange⟩

end Linewise
