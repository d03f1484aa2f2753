import Linewise.Proofs.Printing.Block
import Linewise.Proofs.Recovery

/-!
# Printing and reading back

Every expression that can be printed is read back from its pieces, whatever the
spans of the tokens are, as long as it does not nest deeper than may be read.
-/

namespace Linewise

open Linewise.Parser
open Linewise.Piece

namespace Expression

/-!
## The forms of expressions
-/

theorem sequence_reads {separator : Mark} {elements : List Expression} {build : Expression}
    (hseparator : Grammar.separators.contains (.mark separator) = true)
    (hends : forall rest, Ends (mark separator :: rest))
    (hclose : separator ≠ .closeParen)
    (hbuild : forall read span, eraseAll read = eraseAll elements ->
      (Grammar.sequenceOf (.mark separator) read span).erase = build.erase)
    (hprintable : forall element, element ∈ elements -> element.isPrintable = true)
    (hreads : forall element, element ∈ elements -> element.Reads) {room : Nat}
    (hlevels : (if elements.isEmpty then 0 else levelsOf elements + 1) <= room)
    (rest : List Piece) :
    Accepts room (Grammar.subexpression (Level.ofRoom room))
      ((if elements.isEmpty then parens [mark separator]
        else parens (printsBefore (mark separator) elements)) ++ rest) rest
      (fun read => read.erase = build.erase) := by
  split
  · rename_i hempty
    refine Accepts.kind (Accepts.look (fun start => ?_))
    apply Accepts.bind (Accepts.enclosedNone hseparator hclose)
    intro form hform
    apply Accepts.look
    intro span
    rw [hform]
    exact Accepts.pure (hbuild [] span (by rw [List.isEmpty_iff.mp hempty]))
  · rename_i hne
    rw [if_neg hne] at hlevels
    cases room with
    | zero => cases hlevels
    | succ room =>
        exact sequence_accepts hseparator hends hbuild (by simpa using hne) hprintable hreads
          (levelsOf_le_iff.mp (Nat.le_of_succ_le_succ hlevels))

theorem call_reads {function : Expression} {inputs : List Expression} {span : Span}
    (hfunction : function.isPrintable = true) (hfunctionReads : function.Reads)
    (hne : inputs ≠ []) (hprintable : forall input, input ∈ inputs -> input.isPrintable = true)
    (hreads : forall input, input ∈ inputs -> input.Reads) :
    (call function inputs span).Reads := by
  intro room rest hlevels
  rw [print]
  rw [levels] at hlevels
  split
  · rename_i htext
    rw [if_pos htext] at hlevels
    have hliteral : function.levels = 0 := by
      cases function <;> first | rfl | cases htext
    rcases Nat.exists_eq_add_of_le' (show 2 <= room by omega) with ⟨room, rfl⟩
    exact textCall_accepts hfunction hfunctionReads (by omega) hne hprintable hreads
      (levelsOf_le_iff.mp (by omega))
  · rename_i htext
    rw [if_neg htext] at hlevels
    cases room with
    | zero => cases hlevels
    | succ room =>
        exact call_accepts (by simpa using htext) hfunction hfunctionReads (by omega) hne
          hprintable hreads (levelsOf_le_iff.mp (by omega))

theorem braces_reads {statements : List Statement} {room : Nat}
    (hprintable : forall statement, statement ∈ statements -> statement.isPrintable = true)
    (hreads : forall statement, statement ∈ statements ->
      statement.Each (fun found => found.isPrintable = true -> found.Reads))
    (hlevels : (if statements.isEmpty then 0 else Statement.levelsOf statements + 2) <= room)
    (rest : List Piece) :
    Accepts room (Grammar.subexpression (Level.ofRoom room))
      (braces (Statement.prints statements) ++ rest) rest
      (fun read => read.erase = (Grammar.recordOrBlock statements default).erase) := by
  apply braces_accepts hprintable
  intro statement hmem
  rw [if_neg (by simpa using List.ne_nil_of_mem hmem)] at hlevels
  rcases Nat.exists_eq_add_of_le' (show 2 <= room by omega) with ⟨room, rfl⟩
  exact (Statement.reads (hprintable statement hmem) (hreads statement hmem)).line
    (Statement.levelsOf_le_iff.mp (by omega) statement hmem)

theorem reads (expression : Expression) : expression.isPrintable = true -> expression.Reads := by
  -- Each form is read back by the lemma of its own rule.  What it holds is read one level
  -- further in, and `levels` counts it so.
  induction expression using Expression.treeInduction with
  | placeholder span =>
      intro _ room rest _
      exact Accepts.kind (Accepts.bind (Accepts.expectMark .underscore)
        (fun _ _ => Accepts.pure rfl))
  | «variable» name =>
      intro _ room rest _
      refine Accepts.kind (Accepts.bind (Accepts.leaf _ name) (fun read hread => ?_))
      exact Accepts.pure (by simp [erase, hread])
  | typeName name =>
      intro _ room rest _
      refine Accepts.kind (Accepts.bind (Accepts.leaf _ name) (fun read hread => ?_))
      exact Accepts.pure (by simp [erase, hread])
  | number literal =>
      intro _ room rest _
      refine Accepts.kind (Accepts.bind (Accepts.leaf _ literal) (fun read hread => ?_))
      exact Accepts.pure (by simp [erase, hread])
  | text literal =>
      intro _ room rest _
      apply text_accepts.mono
      rintro read ⟨found, rfl, hfound⟩
      simp [erase, hfound]
  | unit span =>
      intro _ room rest _
      refine Accepts.kind (Accepts.look (fun start => ?_))
      apply Accepts.bind Accepts.enclosedUnit
      intro form hform
      apply Accepts.look
      intro span
      rw [hform]
      exact Accepts.pure rfl
  | record fields span ih =>
      intro hprintable room rest hlevels
      simp only [isPrintable, Bool.and_eq_true, arePrintableFields_eq,
        Statement.arePrintable_iff] at hprintable
      have hne : fields ≠ [] := by simpa using hprintable.1
      rw [levels, levelsOfFields_eq] at hlevels
      rw [print, printFields_eq]
      refine Accepts.mono (braces_reads hprintable.2 ?_ ?_ rest) (fun read hread => ?_)
      · intro statement hmem
        rcases List.mem_map.mp hmem with ⟨field, hfield, rfl⟩
        exact ih field hfield
      · rw [if_neg (by simpa using hne)]
        exact hlevels
      · rw [hread, recordOrBlock_fields hne]
        simp [erase]
  | block statements span ih =>
      intro hprintable room rest hlevels
      simp only [isPrintable, Bool.and_eq_true, Statement.arePrintable_iff] at hprintable
      rw [levels] at hlevels
      rw [print]
      apply Accepts.mono (braces_reads hprintable.2 ih hlevels rest)
      intro read hread
      rw [hread, recordOrBlock_block hprintable.1]
      simp [erase]
  | formattedText literal inputs span ih =>
      intro hprintable room rest hlevels
      simp only [isPrintable, Bool.and_eq_true, arePrintable_iff] at hprintable
      cases room with
      | zero => cases hlevels
      | succ room =>
          exact formattedText_accepts (by simpa using hprintable.1) hprintable.2
            (fun input hmem => ih input hmem (hprintable.2 input hmem))
            (levelsOf_le_iff.mp (Nat.le_of_succ_le_succ hlevels))
  | call function inputs span hfunction hinputs =>
      intro hprintable
      simp only [isPrintable, Bool.and_eq_true, arePrintable_iff] at hprintable
      rcases hprintable with ⟨⟨hprintableFunction, hne⟩, hprintable⟩
      exact call_reads hprintableFunction (hfunction hprintableFunction) (by simpa using hne)
        hprintable (fun input hmem => hinputs input hmem (hprintable input hmem))
  | perform input span ih =>
      intro hprintable room rest hlevels
      cases room with
      | zero => cases hlevels
      | succ room => exact perform_accepts (ih hprintable) (Nat.le_of_succ_le_succ hlevels)
  | «when» input arms span hinput harms =>
      intro hprintable room rest hlevels
      simp only [isPrintable, Bool.and_eq_true] at hprintable
      have hvalues := arePrintableArms_iff.mp hprintable.2
      rw [levels] at hlevels
      cases room with
      | zero => cases hlevels
      | succ room =>
          exact when_accepts (hinput hprintable.1) (by omega) hprintable.2
            (fun arm hmem => harms arm hmem (hvalues arm hmem).2) (by omega)
  | intrinsic name inputs span ih =>
      intro hprintable room rest hlevels
      rw [isPrintable, arePrintable_iff] at hprintable
      cases room with
      | zero => cases hlevels
      | succ room =>
          exact intrinsic_accepts hprintable
            (fun input hmem => ih input hmem (hprintable input hmem))
            (levelsOf_le_iff.mp (Nat.le_of_succ_le_succ hlevels))
  | binary operator left right span hleft hright =>
      intro hprintable room rest hlevels
      simp only [isPrintable, Bool.and_eq_true] at hprintable
      rcases hprintable with ⟨⟨hprintableLeft, hfits⟩, hprintableRight⟩
      rw [levels] at hlevels
      have hrightReads : right.Each Reads := by
        cases right with
        | expression found => exact hright hprintableRight
        | _ => trivial
      cases room with
      | zero => cases hlevels
      | succ room =>
          exact binary_accepts hprintableLeft (hleft hprintableLeft) (by omega) hfits
            hprintableRight hrightReads (by omega)
  | tuple elements span ih =>
      intro hprintable room rest hlevels
      rw [isPrintable, arePrintable_iff] at hprintable
      rw [levels] at hlevels
      rw [print]
      exact sequence_reads rfl (fun rest => by simp [Ends, mark]) (by decide)
        (fun read span hread => by simp [Grammar.sequenceOf, erase, hread]) hprintable
        (fun element hmem => ih element hmem (hprintable element hmem)) hlevels rest
  | collection elements span ih =>
      intro hprintable room rest hlevels
      rw [isPrintable, arePrintable_iff] at hprintable
      rw [levels] at hlevels
      rw [print]
      exact sequence_reads rfl (fun rest => by simp [Ends, mark]) (by decide)
        (fun read span hread => by simp [Grammar.sequenceOf, erase, hread]) hprintable
        (fun element hmem => ih element hmem (hprintable element hmem)) hlevels rest
  | function inputs output span ih =>
      intro hprintable room rest hlevels
      simp only [isPrintable, Bool.and_eq_true, Pattern.arePrintable_iff] at hprintable
      rcases hprintable with ⟨⟨hne, hprintable⟩, hprintableOutput⟩
      rw [levels] at hlevels
      rcases Nat.exists_eq_add_of_le' (show 2 <= room by omega) with ⟨room, rfl⟩
      exact function_accepts (by simpa using hne) hprintable
        (Pattern.levelsOf_le_iff.mp (by omega)) hprintableOutput (ih hprintableOutput) (by omega)

end Expression

/-!
## Reading back what was printed
-/

theorem Cursor.at_ofTokens {pieces : List Piece} {tokens : List Token} {last : Token}
    (htokens : tokens.map Token.piece = pieces) (hlast : last.kind = .endOfInput)
    (hsound : forall piece, piece ∈ pieces -> piece.IsSound) :
    (Cursor.ofTokens (tokens ++ [last])).At maxDepth pieces where
  ahead := by rw [ahead_ofTokens hlast, htokens]
  sound := hsound
  final := by rw [final_ofTokens_append hlast, hlast]
  depth := by rw [depth_ofTokens, Nat.zero_add]
  errors := errors_ofTokens _

/-- In front of the printed expression and the end of the input, reading succeeds, reads
all tokens, notes nothing, and gives the expression up to its spans. -/
theorem expression_read_back (expression : Expression) (hprintable : expression.isPrintable = true)
    (hlevels : expression.levels < maxDepth) (tokens : List Token) (last : Token)
    (htokens : tokens.map Token.piece = expression.print) (hlast : last.kind = .endOfInput) :
    exists read d,
      Level.outermost.expression 0 (Cursor.ofTokens (tokens ++ [last])) = .ok read d ∧
        read.erase = expression.erase ∧ d.ahead = [] ∧ d.errors = [] := by
  have hstart : (Cursor.ofTokens (tokens ++ [last])).At maxDepth (expression.print ++ []) :=
    Cursor.at_ofTokens (by rw [htokens, List.append_nil]) hlast
      (by simpa using expression.print_isClosed.nested.sound)
  have hreads : Accepts maxDepth (Level.outermost.expression 0) (expression.print ++ []) []
      (fun read => read.erase = expression.erase) :=
    (expression.reads hprintable).element hprintable (Nat.le_of_lt_succ hlevels) (by simp [Ends])
  rcases hreads _ hstart with ⟨read, d, hread, hd, herase⟩
  exact ⟨read, d, hread, herase, by simpa using hd.ahead, hd.errors⟩

/-- A call of a text inside of a block, behind a pattern with a variant. -/
theorem expression_read_back_function :
    exists read d,
      Level.outermost.expression 0 (Cursor.ofTokens ((Expression.function
          [.variant { value := "Some", span := default }
            [.variable { value := "x", span := default }] default]
          (.block [.expression (.call (.text { value := "t", span := default })
            [.variable { value := "x", span := default }] default) default] default)
          default).print.map Piece.token ++ [Token.endAt 0])) = .ok read d ∧
        read.erase = (Expression.function
          [.variant { value := "Some", span := default }
            [.variable { value := "x", span := default }] default]
          (.block [.expression (.call (.text { value := "t", span := default })
            [.variable { value := "x", span := default }] default) default] default)
          default).erase ∧ d.ahead = [] ∧ d.errors = [] :=
  expression_read_back _ (by decide) (by decide) _ _ (by decide) rfl

end Linewise
