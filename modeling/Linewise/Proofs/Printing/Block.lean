import Linewise.Proofs.Printing.Expression
import Linewise.Proofs.Printing.Speculation

/-!
# Reading printed blocks

The statements in braces stand on lines of their own.  An assignment is taken by
the trial for one, and an expression is refused by it, so each statement is read
back as what it was, and the braces as the record or the block that they were.
-/

namespace Linewise

open Linewise.Parser
open Linewise.Piece

/-!
## Statements
-/

namespace Statement

variable {room : Nat} {rest : List Piece} {comments : List Lexeme} {start : Span}

theorem noAttributes {before : List Piece} (h : headKind before ≠ .mark .openBracket) :
    Accepts room Grammar.attributes before before (fun found => found = []) :=
  Accepts.repeatNone (fun c hc => by simpa [Cursor.isAt, hc.kind_eq] using h)

theorem statement_accepts {piece : Piece} {before after : List Piece} {level : Level}
    {good : Statement -> Prop} (hhead : piece.1 ∈ Token.expressionStarts)
    (hcapital : piece.1 = .capitalName -> headKind before ≠ .mark .colon)
    (hlowercase : piece.1 = .lowercaseName -> headKind before ≠ .mark .doubleColon)
    (h : forall start, Accepts room (Grammar.assignmentOrExpression level start)
      (piece :: before) after good) :
    Accepts room (Grammar.statement level comments) (piece :: before) after good := by
  have hnone : forall kind, kind ∈ Token.expressionStarts ->
      ¬ kind ∈ [Kind.mark .openBracket, .reserved .instanceWord] := by
    decide
  have hkind := hnone _ hhead
  simp only [List.mem_cons, List.not_mem_nil, or_false, not_or] at hkind
  apply Accepts.look
  intro start
  refine Accepts.bind (noAttributes hkind.1) (fun attributes hattributes => ?_)
  apply Accepts.isAt
  rw [if_neg (by simpa using hkind.2)]
  have hdefinition : Accepts room Grammar.definitionHead? (piece :: before) (piece :: before)
      (fun found => found = none) := by
    refine Accepts.sees false (fun c hc => ?_) (Accepts.pure rfl)
    by_cases hpiece : piece.1 = .capitalName
    · simp [Grammar.atPair, hc.kind_peek, hcapital hpiece]
    · simp [Grammar.atPair, Cursor.isAt, hc.kind_eq, hpiece]
  apply Accepts.bind hdefinition
  intro found hfound
  rw [hfound]
  refine Accepts.sees false (fun c hc => ?_) ?_
  · by_cases hpiece : piece.1 = .lowercaseName
    · simp [Grammar.atPair, hc.kind_peek, hlowercase hpiece]
    · simp [Grammar.atPair, Cursor.isAt, hc.kind_eq, hpiece]
  · rw [if_neg (by simp), if_pos (by simp [hattributes])]
    exact h start

theorem unit_accepts {pieces after : List Piece} {next : Piece} {level : Level}
    {good : Statement -> Prop} (hunit : IsUnit startsExpression pieces)
    (hcolon : headKind pieces = .capitalName -> next.1 ≠ .mark .colon)
    (hcolons : next.1 ≠ .mark .doubleColon)
    (h : forall start, Accepts room (Grammar.assignmentOrExpression level start)
      (pieces ++ next :: rest) after good) :
    Accepts room (Grammar.statement level comments) (pieces ++ next :: rest) after good := by
  cases hunit with
  | @atom piece hstarts hsound hplain =>
      simp only [startsExpression, Bool.and_eq_true, List.contains_eq_mem,
        decide_eq_true_eq] at hstarts
      exact statement_accepts hstarts.1 hcolon (fun _ => hcolons) h
  | group hpartners hinner =>
      cases hpartners with
      | round => exact statement_accepts (by decide) Kind.noConfusion Kind.noConfusion h
      | curly => exact statement_accepts (by decide) Kind.noConfusion Kind.noConfusion h

def Reads (statement : Statement) : Prop :=
  forall room rest comments, statement.levels <= room ->
    Accepts (room + 1) (Grammar.statement (Level.ofRoom (room + 1)) comments)
      (statement.print ++ lineBreak :: rest) (lineBreak :: rest)
      (fun read => read.erase = statement.erase)

theorem assignment_reads {pattern : Pattern} {value : Expression} {span : Span}
    (hpattern : pattern.isPrintable = true) (hvalue : value.isPrintable = true)
    (hreads : value.Reads) : (assignment pattern value span).Reads := by
  intro room rest comments hlevels
  rw [levels, Nat.max_le] at hlevels
  rw [print, List.append_assoc, List.cons_append]
  refine unit_accepts (Pattern.print_isUnit hpattern).expression ?_ (by simp [mark])
    (fun start => ?_)
  · intro hcapital
    have hhead := Pattern.headKind_print hpattern []
    rw [List.append_nil, hcapital] at hhead
    simp [Token.patternStarts] at hhead
  · have htarget : Accepts (room + 1) (Grammar.assignmentHead (Level.ofRoom (room + 1)))
        (pattern.print ++ mark .colon :: (value.print ++ lineBreak :: rest))
        (value.print ++ lineBreak :: rest) (fun read => read.erase = pattern.erase) := by
      apply Accepts.bind ((pattern.reads hpattern).whole hpattern hlevels.1 (by simp [mark]))
      intro read hread
      apply Accepts.bind (Accepts.expectMark .colon)
      intro _ _
      exact Accepts.pure hread
    apply Accepts.bind htarget.speculate
    intro found hfound
    rcases hfound with ⟨target, hfound, htargetErase⟩
    rw [hfound]
    apply Accepts.bind (Accepts.noLineBreaks (Expression.headKind_ne_lineBreak hvalue _))
    intro _ _
    apply Accepts.bind (hreads.whole hvalue hlevels.2)
    intro read hread
    apply Accepts.look
    intro span
    exact Accepts.pure (by simp [erase, htargetErase, hread])

theorem expression_reads {found : Expression} {span : Span} (hprintable : found.isPrintable = true)
    (hreads : found.Reads) : (expression found span).Reads := by
  intro room rest comments hlevels
  have hunit := Expression.print_isUnit hprintable
  apply unit_accepts hunit (fun _ => by simp [lineBreak]) (by simp [lineBreak])
  intro start
  apply Accepts.bind (Accepts.speculateFailing
    (fun c hc => Grammar.assignmentHead_fails hunit hc))
  intro target htarget
  rw [htarget]
  apply Accepts.bind (hreads.whole hprintable hlevels)
  intro read hread
  apply Accepts.look
  intro span
  exact Accepts.pure (by simp [erase, hread])

theorem reads {statement : Statement} (hprintable : statement.isPrintable = true)
    (hreads : statement.Each (fun found => found.isPrintable = true -> found.Reads)) :
    statement.Reads := by
  cases statement with
  | assignment pattern value span =>
      simp only [isPrintable, Bool.and_eq_true] at hprintable
      exact assignment_reads hprintable.1 hprintable.2 (hreads hprintable.2)
  | expression found span => exact expression_reads hprintable (hreads hprintable)
  | _ => cases hprintable

theorem headKind_print {statement : Statement} (hprintable : statement.isPrintable = true)
    (rest : List Piece) : headKind (statement.print ++ rest) ∈ Token.expressionStarts := by
  have hsubset : forall kind, kind ∈ Token.patternStarts -> kind ∈ Token.expressionStarts := by
    decide
  cases statement with
  | assignment pattern value span =>
      simp only [isPrintable, Bool.and_eq_true] at hprintable
      rw [print, List.append_assoc]
      exact hsubset _ (Pattern.headKind_print hprintable.1 _)
  | expression found span => exact Expression.headKind_print hprintable rest
  | _ => cases hprintable

/-!
## Lists of statements
-/

theorem noComments {before : List Piece} (h : headKind before ≠ .lineBreak) :
    Accepts room leadingComments before before (fun found => found = []) := by
  intro c hc
  have htrivia : forall token more, c.ahead = token :: more -> Cursor.isTrivia token = false := by
    intro token more hahead
    have hcomment := hc.isComment_of_mem (t := token) (by simp [hahead])
    have hbreak : token.isLineBreak = false := by
      rw [← hc.ahead, hahead] at h
      simpa [Token.isLineBreak, Token.piece] using h
    rw [Cursor.isTrivia, hcomment, hbreak, Bool.or_self]
  refine ⟨c.leadingComments, c.skipTrivia, rfl, ?_, ?_⟩
  · refine hc.congr ?_ rfl rfl rfl
    cases hahead : c.ahead with
    | nil => simp [Cursor.skipTrivia, hahead]
    | cons token more => simp [Cursor.skipTrivia, hahead, htrivia token more hahead]
  · cases hahead : c.ahead with
    | nil => simp [Cursor.leadingComments, hahead]
    | cons token more => simp [Cursor.leadingComments, hahead, htrivia token more hahead]

theorem recovering_accepts {before after : List Piece} {terminator : Kind}
    {parser : Parser Statement} {good : Statement -> Prop}
    (h : Accepts room parser before after good) :
    Accepts room (Grammar.recovering terminator parser) before after good := by
  intro c hc
  rcases h c hc with ⟨value, d, hvalue, hd, hgood⟩
  exists value, d
  constructor
  · rw [Grammar.recovering, hvalue]
  · exact ⟨hd, hgood⟩

def ReadsLine (room : Nat) (statement : Statement) : Prop :=
  forall comments rest,
    Accepts room (Grammar.statementLine (Level.ofRoom room) (.mark .closeCurly) comments)
      (statement.print ++ lineBreak :: rest) (lineBreak :: rest)
      (fun read => read.erase = statement.erase)

theorem Reads.line {statement : Statement} (hreads : statement.Reads)
    (hlevels : statement.levels <= room) : statement.ReadsLine (room + 2) := by
  intro comments rest
  have hend : Accepts (room + 2) (Grammar.endOfStatement (.mark .closeCurly)) (lineBreak :: rest)
      (lineBreak :: rest) (fun _ => True) := by
    refine Accepts.isAt (Accepts.look (fun listEnds => ?_))
    rw [if_pos (by simp [lineBreak])]
    exact Accepts.pure trivial
  apply Accepts.bind (hreads room rest comments hlevels).nested
  intro read hread
  exact Accepts.bind hend (fun _ _ => Accepts.pure hread)

theorem statementsUpTo_accepts {statements : List Statement} {bound : Nat}
    (hprintable : forall statement, statement ∈ statements -> statement.isPrintable = true)
    (hlines : forall statement, statement ∈ statements -> statement.ReadsLine room)
    (hbound : statements.length < bound) :
    Accepts room (Grammar.statementsUpTo (Level.ofRoom room) (.mark .closeCurly) bound)
      (prints statements ++ mark .closeCurly :: rest) (mark .closeCurly :: rest)
      (fun read => eraseAll read = eraseAll statements) := by
  induction statements generalizing bound with
  | nil =>
      cases bound with
      | zero => cases hbound
      | succ bound =>
          apply Accepts.bind (noComments (by simp [prints, mark]))
          intro _ _
          refine Accepts.sees true (fun c hc => ?_) (Accepts.pure rfl)
          have hkind : c.kind = .mark .closeCurly := hc.kind_eq
          simp [Grammar.atListEnd, Cursor.isAt, hkind]
  | cons statement more ih =>
      cases bound with
      | zero => cases hbound
      | succ bound =>
          have hstarts : forall kind, kind ∈ Token.expressionStarts ->
              ¬ kind ∈ [Kind.lineBreak, .mark .closeCurly, .endOfInput] := by
            decide
          have hhead := hstarts _ (headKind_print (hprintable statement (by simp))
            (lineBreak :: (prints more ++ mark .closeCurly :: rest)))
          simp only [List.mem_cons, List.not_mem_nil, or_false, not_or] at hhead
          rw [prints, List.append_assoc, List.cons_append]
          apply Accepts.bind (noComments hhead.1)
          intro comments _
          refine Accepts.sees false (fun c hc => ?_) ?_
          · simp [Grammar.atListEnd, Cursor.isAt, Cursor.hasTokens, hc.kind_eq, hhead.2.1,
              hhead.2.2]
          · apply Accepts.bind (recovering_accepts (hlines statement (by simp) comments _))
            intro read hread
            apply Accepts.isAt
            rw [if_pos (by simp [lineBreak])]
            apply Accepts.bind Accepts.advance
            intro _ _
            apply Accepts.bind (ih (fun found hmem => hprintable found (by simp [hmem]))
              (fun found hmem => hlines found (by simp [hmem]))
              (Nat.lt_of_succ_lt_succ hbound))
            intro later hlater
            exact Accepts.pure (by simp [eraseAll, hread, hlater])

/-!
## Records and blocks
-/

theorem field?_erase (statement : Statement) :
    statement.erase.field? = statement.field?.map Expression.eraseField := by
  cases statement with
  | assignment pattern value span =>
      rw [erase]
      cases pattern with
      | «variable» name => rfl
      | _ => rfl
  | _ => rfl

theorem mapM_field?_erase (statements : List Statement) :
    (statements.map erase).mapM field? =
      (statements.mapM field?).map (List.map Expression.eraseField) := by
  induction statements with
  | nil => rfl
  | cons statement more ih =>
      rw [List.map_cons, List.mapM_cons, List.mapM_cons, field?_erase, ih]
      cases statement.field? with
      | none => rfl
      | some field =>
          cases more.mapM field? with
          | none => rfl
          | some fields => rfl

theorem erase_recordOrBlock (statements : List Statement) (span : Span) :
    (Grammar.recordOrBlock statements span).erase =
      Grammar.recordOrBlock (eraseAll statements) default := by
  have hfields : Grammar.fields? (eraseAll statements) =
      (Grammar.fields? statements).map (List.map Expression.eraseField) := by
    unfold Grammar.fields?
    rw [eraseAll_eq_map, mapM_field?_erase, List.isEmpty_map]
    split <;> rfl
  unfold Grammar.recordOrBlock
  rw [hfields]
  cases Grammar.fields? statements with
  | none => simp [Expression.erase]
  | some fields => simp [Expression.erase, Expression.eraseFields_eq_map]

end Statement

namespace Expression

variable {room : Nat} {rest : List Piece}

theorem braces_accepts {statements : List Statement}
    (hprintable : forall statement, statement ∈ statements -> statement.isPrintable = true)
    (hlines : forall statement, statement ∈ statements -> statement.ReadsLine room) :
    Accepts room (Grammar.subexpression (Level.ofRoom room))
      (braces (Statement.prints statements) ++ rest) rest
      (fun read => read.erase = (Grammar.recordOrBlock statements default).erase) := by
  rw [braces, List.cons_append, List.append_assoc, List.singleton_append]
  have hlength : statements.length <= (Statement.prints statements).length := by
    rw [Statement.prints_eq_flatMap]
    exact Accepts.length_le_flatMap (by simp)
  apply Accepts.kind
  apply Accepts.bind (Accepts.expectMark .openCurly)
  intro _ _
  refine Accepts.bind (Accepts.sees _ (fun c hc => by rw [hc.length_ahead])
    (Statement.statementsUpTo_accepts hprintable hlines ?_)) (fun read hread => ?_)
  · rw [List.length_append]
    omega
  · apply Accepts.bind (Accepts.expectMark .closeCurly)
    intro _ _
    apply Accepts.look
    intro span
    exact Accepts.pure (by
      rw [Statement.erase_recordOrBlock, Statement.erase_recordOrBlock, hread])

theorem recordOrBlock_fields {fields : List (Entry Lexeme Expression)} (hne : fields ≠ [])
    (span : Span) :
    Grammar.recordOrBlock (fields.map Entry.toStatement) span = record fields span := by
  rw [Grammar.recordOrBlock, Grammar.fields?_eq_some.mpr ⟨hne, rfl⟩]

theorem recordOrBlock_block {statements : List Statement}
    (h : (statements.isEmpty || !statements.all (fun found => found.field?.isSome)) = true)
    (span : Span) : Grammar.recordOrBlock statements span = block statements span := by
  have hfields : Grammar.fields? statements = none := by
    unfold Grammar.fields?
    split
    · rfl
    · rename_i hne
      rw [Bool.eq_false_iff.mpr hne, Bool.false_or] at h
      clear hne
      induction statements with
      | nil => cases h
      | cons statement more ih =>
          rw [List.mapM_cons]
          cases hfield : statement.field? with
          | none => rfl
          | some field =>
              rw [List.all_cons, hfield, Option.isSome_some, Bool.true_and] at h
              rw [ih h]
              rfl
  unfold Grammar.recordOrBlock
  rw [hfields]

end Expression

end Linewise
