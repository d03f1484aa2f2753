import Linewise.Grammar.Expression
import Linewise.Proofs.Reading.Pattern

/-!
# The account of expressions

What the rules of the expression grammar read is the script of the expression
they build, as long as this is so for braces.  What stands in braces is a list of
statements, some of which may be given up, and every account has its own way to
deal with those.
-/

namespace Linewise
/-!
## Lines of records
-/

theorem Statement.field?_eq_some {statement : Statement} {field : Entry Lexeme Expression} :
    statement.field? = some field <-> statement = field.toStatement := by
  constructor
  · intro h
    unfold field? at h
    split at h
    · cases h
      rfl
    · cases h
  · rintro rfl
    rfl

theorem Statement.mapM_field?_eq_some {statements : List Statement}
    {fields : List (Entry Lexeme Expression)} :
    statements.mapM field? = some fields <-> statements = fields.map Entry.toStatement := by
  induction statements generalizing fields with
  | nil => cases fields <;> simp
  | cons first statements ih =>
      cases fields with
      | nil => simp [Option.bind_eq_some_iff]
      | cons field fields =>
          simp [Option.bind_eq_some_iff, field?_eq_some, ih]

/-- There are fields exactly if there are lines and all of them are fields. -/
theorem Grammar.fields?_eq_some {statements : List Statement}
    {fields : List (Entry Lexeme Expression)} :
    fields? statements = some fields <->
      fields ≠ [] ∧ statements = fields.map Entry.toStatement := by
  unfold fields?
  split
  · rename_i hempty
    rw [List.isEmpty_iff.mp hempty]
    cases fields <;> simp
  · rename_i hne
    rw [Statement.mapM_field?_eq_some]
    refine ⟨fun h => ⟨?_, h⟩, And.right⟩
    rintro rfl
    exact hne (by simp [h])

namespace Grammar

open Linewise.Parser
open Linewise.Account

variable {A : Account} {level : Level}

/-!
## Sequences
-/

theorem separators_isSilent (kind : Kind) (h : kind ∈ separators) : kind.isSilent = true := by
  simp only [separators, List.mem_cons, List.not_mem_nil, or_false] at h
  rcases h with hkind | hkind
  · rw [hkind]
    rfl
  · rw [hkind]
    rfl

theorem script_sequenceOf (separator : Kind) (elements : List Expression) (span : Span) :
    (sequenceOf separator elements span).script = elements.flatMap Expression.script := by
  unfold sequenceOf
  split
  · exact Expression.scripts_eq_flatMap elements
  · exact Expression.scripts_eq_flatMap elements

theorem nextElement_reads (hlevel : level.Keeps A) {separator : Kind}
    (hseparator : separator ∈ separators) {pre : Cursor -> Prop} :
    A.ReadsIf 1 pre (nextElement level separator) Expression.script := by
  apply Tells.look
  intro kind
  split
  · rename_i hkind
    refine Tells.bindIf (ReadsIf.advanceSilent ?_) (fun _ => ?_)
    · rintro c ⟨_, hc⟩
      rw [hc, hkind]
      exact separators_isSilent separator hseparator
    · exact Tells.finish (hlevel.expression 0) (fun _ => rfl)
  · exact Tells.mixedSeparators _

theorem expression_reads (hlevel : level.Keeps A) :
    A.Reads 1 (expression level) Expression.script := by
  apply Tells.look
  intro start
  apply Tells.bind (hlevel.expression 0)
  intro first
  apply Tells.look
  intro separator
  split
  · rename_i hseparator
    have hmem : separator ∈ separators := by simpa using hseparator
    refine Tells.step (Reads.repeatWhile (nextElement_reads hlevel hmem) ?_) (fun rest => ?_)
    · intro c hend
      simp [hend, separators]
    · apply Tells.look
      intro span
      exact Tells.pure (by simp [script_sequenceOf])
  · exact Tells.pure rfl

/-!
## Subexpressions
-/

theorem placeholderExpression_reads : A.Reads 1 placeholderExpression Expression.script :=
  Tells.bind (Reads.expectMark .underscore) (fun _ => Tells.pure rfl)

theorem variableExpression_reads : A.Reads 1 variableExpression Expression.script :=
  Tells.bind Reads.variableName (fun _ => Tells.pure rfl)

theorem typeNameExpression_reads : A.Reads 1 typeNameExpression Expression.script :=
  Tells.bind Reads.typeName (fun _ => Tells.pure rfl)

theorem numberExpression_reads : A.Reads 1 numberExpression Expression.script :=
  Tells.bind Reads.number (fun _ => Tells.pure rfl)

theorem textExpression_reads : A.Reads 1 textExpression Expression.script :=
  Tells.bind Reads.text (fun _ => Tells.pure rfl)

theorem parenthesizedExpression_reads (hlevel : level.Keeps A) :
    A.Reads 1 (parenthesizedExpression level) Expression.script := by
  apply Tells.look
  intro start
  apply Tells.bind (Reads.enclosed (hlevel.expression 0)
    (Expression.script_composed Symbol.balanced_composed) separators_isSilent)
  intro form
  apply Tells.look
  intro span
  cases form with
  | unit => exact Tells.pure rfl
  | group inner => exact Tells.pure rfl
  | sequence separator elements =>
      exact Tells.pure (by simp [enclosedScript, script_sequenceOf])

theorem subexpression_reads (hlevel : level.Keeps A)
    (hbraced : A.Reads 1 (bracedExpression level) Expression.script) :
    A.Reads 1 (subexpression level) Expression.script := by
  apply Tells.look
  intro kind
  split
  · exact placeholderExpression_reads.readsIf
  · exact variableExpression_reads.readsIf
  · exact typeNameExpression_reads.readsIf
  · exact numberExpression_reads.readsIf
  · exact textExpression_reads.readsIf
  · exact hbraced.readsIf
  · exact (parenthesizedExpression_reads hlevel).readsIf
  · exact Tells.unexpected _

theorem not_startsExpression_of_end {c : Cursor} (h : c.kind = .endOfInput) :
    c.current.startsExpression = false := by
  have hkind : c.current.kind = .endOfInput := h
  simp [Token.startsExpression, Token.expressionStarts, hkind]

theorem inputs_reads (hlevel : level.Keeps A)
    (hbraced : A.Reads 1 (bracedExpression level) Expression.script) :
    A.Reads 0 (inputs level) Expression.scripts := by
  refine Tells.last (Reads.repeatWhile (subexpression_reads hlevel hbraced).readsIf ?_) ?_
  · intro c hend
    exact not_startsExpression_of_end hend
  · intro expressions
    exact (Expression.scripts_eq_flatMap expressions).symm

/-!
## Operands
-/

theorem performExpression_reads (hlevel : level.Keeps A)
    (hbraced : A.Reads 1 (bracedExpression level) Expression.script) (start : Span) :
    A.ReadsIf 1 (fun c => c.kind = .reserved .doWord) (performExpression level start)
      Expression.script := by
  apply Tells.bindIf (ReadsIf.advanceReserved .doWord (fun c hc => hc))
  intro _
  apply Tells.step (subexpression_reads hlevel hbraced)
  intro input
  apply Tells.look
  intro span
  exact Tells.pure rfl

theorem arm_reads (hlevel : level.Keeps A) :
    A.Reads 1 (arm level) Expression.armScript := by
  apply Tells.look
  intro start
  apply Tells.bind (pattern_reads hlevel)
  intro key
  apply Tells.step (Reads.expectMark .arrow)
  intro _
  apply Tells.step Reads.skipLineBreaks
  intro _
  apply Tells.step (expression_reads hlevel)
  intro value
  apply Tells.look
  intro span
  exact Tells.pure (by simp [Expression.armScript])

theorem whenExpression_reads (hlevel : level.Keeps A)
    (hbraced : A.Reads 1 (bracedExpression level) Expression.script) :
    A.Reads 1 (whenExpression level) Expression.script := by
  apply Tells.bind (Reads.expectReserved .whenWord)
  intro opening
  apply Tells.step (subexpression_reads hlevel hbraced)
  intro input
  apply Tells.step (Reads.expectMark .openCurly)
  intro _
  apply Tells.step (Reads.lines (arm_reads hlevel))
  intro arms
  apply Tells.step (Reads.expectMark .closeCurly)
  intro _
  apply Tells.look
  intro span
  exact Tells.pure (by simp [Expression.script, Expression.armScripts_eq_flatMap])

theorem intrinsicExpression_reads (hlevel : level.Keeps A)
    (hbraced : A.Reads 1 (bracedExpression level) Expression.script) (start : Span) :
    A.ReadsIf 1 (fun c => c.kind = .reserved .intrinsicWord) (intrinsicExpression level start)
      Expression.script := by
  apply Tells.bindIf (ReadsIf.advanceReserved .intrinsicWord (fun c hc => hc))
  intro _
  apply Tells.step Reads.text
  intro name
  apply Tells.step (inputs_reads hlevel hbraced)
  intro inputs
  apply Tells.look
  intro span
  exact Tells.pure rfl

theorem script_applied (textHead : Bool) (head : Expression) (inputs : List Expression)
    (span : Span) :
    (applied textHead head inputs span).script = head.script ++ Expression.scripts inputs := by
  unfold applied
  split
  · rfl
  · rfl

theorem callExpression_reads (hlevel : level.Keeps A)
    (hbraced : A.Reads 1 (bracedExpression level) Expression.script) (start : Span) :
    A.Reads 1 (callExpression level start) Expression.script := by
  apply Tells.look
  intro textHead
  apply Tells.bind (subexpression_reads hlevel hbraced)
  intro head
  apply Tells.look
  intro more
  split
  · apply Tells.step (inputs_reads hlevel hbraced)
    intro inputs
    apply Tells.look
    intro span
    exact Tells.pure (script_applied textHead head inputs span).symm
  · exact Tells.pure rfl

theorem operand_reads (hlevel : level.Keeps A)
    (hbraced : A.Reads 1 (bracedExpression level) Expression.script) :
    A.Reads 1 (operand level) Expression.script := by
  apply Tells.look
  intro start
  apply Tells.look
  intro kind
  split
  · exact fun c hc hpre => performExpression_reads hlevel hbraced start c hc hpre.2
  · exact (whenExpression_reads hlevel hbraced).readsIf
  · exact fun c hc hpre => intrinsicExpression_reads hlevel hbraced start c hc hpre.2
  · exact (callExpression_reads hlevel hbraced start).readsIf

/-!
## Function literals
-/

theorem functionInputs_reads (hlevel : level.Keeps A) :
    A.Reads 1 (functionInputs level)
      (fun inputs => Pattern.scripts inputs ++ [.mark .arrow]) := by
  apply Tells.bind (subpattern_reads hlevel)
  intro first
  apply Tells.step (subpatterns_reads hlevel)
  intro rest
  apply Tells.step (Reads.expectMark .arrow)
  intro _
  exact Tells.pure rfl

theorem functionLiteral_reads (hlevel : level.Keeps A) :
    A.Reads 0 (functionLiteral level) (optionScript Expression.script) := by
  apply Tells.look
  intro start
  apply Tells.look
  intro worthTrying
  split
  · apply Tells.step (ReadsIf.speculate (functionInputs_reads hlevel))
    intro inputs
    cases inputs with
    | none => exact Tells.pure rfl
    | some inputs =>
        apply Tells.step Reads.skipLineBreaks
        intro _
        apply Tells.step (hlevel.expression 0)
        intro output
        apply Tells.look
        intro span
        exact Tells.pure (by simp [optionScript, Expression.script])
  · change A.Tells 0 _ [] (pure none) (optionScript Expression.script)
    exact Tells.pure rfl

/-!
## Operators
-/

theorem rightOperand_reads (hlevel : level.Keeps A) (operator : Operator) :
    A.Reads 1 (rightOperand level operator) Operand.script := by
  unfold rightOperand
  split
  · exact Tells.bind (hlevel.expression _) (fun _ => Tells.pure rfl)
  · exact Tells.bind hlevel.type (fun _ => Tells.pure rfl)
  · exact Tells.bind (patternOperand_reads hlevel) (fun _ => Tells.pure rfl)

theorem operator_of_ofSpelling? {spelling : String} {operator : Operator}
    (h : Operator.ofSpelling? spelling = some operator) : operator.spelling = spelling := by
  have hfound := List.find?_some h
  simpa using hfound

theorem operator_mark {mark : Mark} {operator : Operator}
    (h : Operator.ofSpelling? mark.spelling = some operator) : operator.kind = .mark mark := by
  cases mark <;> revert operator <;> decide

theorem operator_spelled {kind : Kind} {spelling : String} {operator : Operator}
    (hkind : kind.spelling? = some spelling)
    (h : Operator.ofSpelling? spelling = some operator) : operator.kind = kind := by
  cases kind with
  | mark mark =>
      cases hkind
      exact operator_mark h
  | reserved word =>
      cases hkind
      cases word <;> cases h
  | _ => cases hkind

theorem operator_word {token : Token} {operator : Operator}
    (hword : token.isOperatorWord = true)
    (h : Operator.ofSpelling? token.value = some operator) : operator.kind = .lowercaseName := by
  simp only [Token.isOperatorWord, Bool.and_eq_true, List.contains_eq_mem, decide_eq_true_eq,
    Token.operatorWords, List.mem_cons, List.not_mem_nil, or_false] at hword
  rcases hword.2 with hvalue | hvalue | hvalue | hvalue | hvalue | hvalue <;>
    (rw [hvalue] at h; cases h; rfl)

theorem symbol_of_operator? {token : Token} {operator : Operator}
    (h : token.operator? = some operator) : token.symbol = operator.symbol := by
  unfold Token.operator? at h
  split at h
  · rename_i hkind
    split at h
    · rename_i hword
      have hspelling := operator_of_ofSpelling? h
      have hoperator : operator.kind = .lowercaseName := operator_word hword h
      simp [Token.symbol, Kind.symbol, Operator.symbol, hkind, hoperator, hspelling,
        Kind.spelling?]
    · cases h
  · split at h
    · rename_i spelling hspelled
      have hspelling := operator_of_ofSpelling? h
      have hoperator : operator.kind = token.kind := operator_spelled hspelled h
      simp [Token.symbol, Kind.symbol, Operator.symbol, hoperator, hspelling, hspelled]
    · cases h

theorem isWord_of_operator? {token : Token} {operator : Operator}
    (h : token.operator? = some operator) : token.kind.isWord = true := by
  cases hkind : token.kind with
  | endOfInput => simp [Token.operator?, hkind, Kind.spelling?] at h
  | unrecognised => simp [Token.operator?, hkind, Kind.spelling?] at h
  | _ => rfl

def continuationScript (next : Continuation) : List Symbol :=
  next.operator.symbol :: next.right.script

theorem continuation_reads (hlevel : level.Keeps A) (start : Span) (least : Nat) :
    A.ReadsIf 1 (fun c => atOperator least c = true) (continuation level start)
      continuationScript := by
  refine Tells.bindIf (ReadsIf.advanceToken ?_) (fun token => ?_)
  · intro c hc
    unfold atOperator at hc
    split at hc
    · rename_i operator hoperator
      exact isWord_of_operator? hoperator
    · cases hc
  apply Tells.step Reads.skipLineBreaks
  intro _
  cases hoperator : token.operator? with
  | none => exact Tells.unexpected _
  | some operator =>
      rw [symbol_of_operator? hoperator]
      apply Tells.step (rightOperand_reads hlevel operator)
      intro right
      apply Tells.look
      intro span
      exact Tells.pure rfl

theorem script_applyContinuations (first : Expression) (rest : List Continuation) :
    (applyContinuations first rest).script =
      first.script ++ rest.flatMap continuationScript := by
  induction rest generalizing first with
  | nil => simp [applyContinuations]
  | cons next rest ih =>
      have hrest := ih (.binary next.operator first next.right next.span)
      simpa [applyContinuations, Expression.script, continuationScript] using hrest

theorem speculate_eq_some {α : Type} {parser : Parser α} {c d : Cursor} {value : α}
    (h : speculate parser c = .ok (some value) d) : parser c = .ok value d := by
  unfold speculate at h
  cases hparser : parser c with
  | ok found e =>
      rw [hparser] at h
      cases h
      rfl
  | error diagnostic e =>
      rw [hparser] at h
      cases h
  | fault found =>
      rw [hparser] at h
      cases h

theorem functionLiteral_takes (hlevel : level.Keeps A) {c d : Cursor}
    {function : Expression} (hc : A.Fits c)
    (h : functionLiteral level c = .ok (some function) d) :
    d.ahead.length < c.ahead.length := by
  rcases bind_eq_ok.mp h with ⟨start, _, hstart, h⟩
  cases hstart
  rcases bind_eq_ok.mp h with ⟨worthTrying, _, hworth, h⟩
  cases hworth
  split at h
  · rcases bind_eq_ok.mp h with ⟨inputs, d', hinputs, h⟩
    cases inputs with
    | none => cases h
    | some inputs =>
        have hfirst := ReadsIf.elim (functionInputs_reads hlevel) hc trivial
        rw [speculate_eq_some hinputs] at hfirst
        rcases hfirst with ⟨read, noted, passage, hleast, _⟩
        rcases bind_eq_ok.mp h with ⟨_, e, hskip, h⟩
        cases hskip
        rcases d'.skipLineBreaks_passage with ⟨_, passage', _⟩
        rcases bind_eq_ok.mp h with ⟨output, e, houtput, h⟩
        have hsecond := ReadsIf.elim (hlevel.expression 0)
          ((hc.after passage).after passage') trivial
        rw [houtput] at hsecond
        rcases hsecond with ⟨_, _, passage'', _, _⟩
        rcases bind_eq_ok.mp h with ⟨span, _, hspan, h⟩
        cases hspan
        cases h
        rw [passage.ahead, passage'.ahead, passage''.ahead]
        simp only [List.length_append]
        omega
  · cases h

theorem tells_tryFirst {α β : Type} {first : Parser (Option α)} {next : Option α -> Parser β}
    {script : α -> List Symbol} {told : β -> List Symbol} {pre : Cursor -> Prop}
    (hfirst : A.Reads 0 first (optionScript script))
    (htakes : forall {c value d}, A.Fits c -> first c = .ok (some value) d ->
      d.ahead.length < c.ahead.length)
    (hsome : forall value, A.Tells 0 (fun _ => True) (script value) (next (some value)) told)
    (hnone : A.Tells 1 (fun _ => True) [] (next none) told) :
    A.Tells 1 pre [] (first >>= next) told := by
  intro c hc _
  apply satisfies_bind
  have hreply := hfirst c hc trivial
  cases hvalue : first c with
  | fault found =>
      rw [hvalue] at hreply
      exact hreply
  | error diagnostic d =>
      rw [hvalue] at hreply
      exact hreply
  | ok value d =>
      rw [hvalue] at hreply
      rcases hreply with ⟨read, noted, passage, _, hholds⟩
      have hnext : (next value d).Satisfies (fun result e => exists read' noted',
          d.Passage read' noted' e ∧ 1 <= read.length + read'.length ∧
            forall earlier notedEarlier,
              A.Holds earlier (read' ++ e.ahead) notedEarlier (optionScript script value) ->
                A.Holds (earlier ++ read') e.ahead (notedEarlier ++ noted') (told result))
          (fun diagnostic e => exists read' noted', d.Passage read' noted' e ∧
            diagnostic.span = e.current.span ∧
            forall earlier notedEarlier,
              A.Holds earlier (read' ++ e.ahead) notedEarlier (optionScript script value) ->
                A.Fails (earlier ++ read') e.current (notedEarlier ++ noted') diagnostic) := by
        cases value with
        | none =>
            refine (hnone d (hc.after passage) trivial).mono ?_ (fun _ _ held => held)
            rintro result e ⟨read', noted', passage', hleast, hholds'⟩
            exact ⟨read', noted', passage', Nat.le_add_left_of_le hleast, hholds'⟩
        | some found =>
            have hshorter := htakes hc hvalue
            rw [passage.ahead, List.length_append] at hshorter
            refine (hsome found d (hc.after passage) trivial).mono ?_ (fun _ _ held => held)
            rintro result e ⟨read', noted', passage', _, hholds'⟩
            exact ⟨read', noted', passage', by omega, hholds'⟩
      refine hnext.mono ?_ ?_
      · rintro result e ⟨read', noted', passage', hleast, hholds'⟩
        refine ⟨_, _, passage.trans passage', by rwa [List.length_append], ?_⟩
        intro earlier notedEarlier hbefore
        rw [List.append_assoc, ← passage'.ahead] at hbefore
        have hmiddle := hholds _ _ hbefore
        rw [passage'.ahead] at hmiddle
        simpa only [List.append_assoc] using hholds' _ _ hmiddle
      · rintro diagnostic e ⟨read', noted', passage', hspan, hfails⟩
        refine ⟨_, _, passage.trans passage', hspan, ?_⟩
        intro earlier notedEarlier hbefore
        rw [List.append_assoc, ← passage'.ahead] at hbefore
        have hmiddle := hholds _ _ hbefore
        rw [passage'.ahead] at hmiddle
        simpa only [List.append_assoc] using hfails _ _ hmiddle

theorem not_atOperator_of_end {least : Nat} {c : Cursor} (h : c.kind = .endOfInput) :
    atOperator least c = false := by
  have hkind : c.current.kind = .endOfInput := h
  simp [atOperator, Token.operator?, hkind, Kind.spelling?]

theorem binaryExpression_reads (hlevel : level.Keeps A)
    (hbraced : A.Reads 1 (bracedExpression level) Expression.script) (least : Nat) :
    A.Reads 1 (binaryExpression level least) Expression.script := by
  apply Tells.look
  intro start
  refine tells_tryFirst (functionLiteral_reads hlevel) (functionLiteral_takes hlevel)
    (fun function => Tells.pure rfl) ?_
  apply Tells.bind (operand_reads hlevel hbraced)
  intro first
  apply Tells.step (Reads.repeatWhile (continuation_reads hlevel start least)
    (fun c hend => not_atOperator_of_end hend))
  intro rest
  exact Tells.pure (script_applyContinuations first rest).symm

end Grammar
end Linewise
