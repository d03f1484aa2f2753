import Linewise.Proofs.Printing.Pattern

/-!
# Reading printed expressions

A printed expression is read back as a subexpression, whatever follows it, and as
an expression element where the pieces around it end.  The forms in braces that
hold statements stand in the next module.
-/

namespace Linewise

open Linewise.Parser
open Linewise.Piece

namespace Piece

def Ends (rest : List Piece) : Prop :=
  headKind rest ∈
    [Kind.endOfInput, .lineBreak, .mark .closeParen, .mark .semicolon, .mark .comma]

theorem Ends.halts {rest : List Piece} (h : Ends rest) : Halts rest := by
  unfold Ends at h
  constructor
  · intro piece hpiece
    have hkind : piece.1 = headKind rest := by simp [headKind, hpiece]
    have hnone : forall kind, kind ∈ [Kind.endOfInput, .lineBreak, .mark .closeParen,
        .mark .semicolon, .mark .comma] -> Token.expressionStarts.contains kind = false := by
      decide
    rw [startsExpression, hkind, hnone _ h, Bool.false_and]
  · intro harrow
    rw [harrow] at h
    simp at h

theorem operator?_of_piece {token : Token} {operator : Operator}
    (h : token.piece = .operator operator) : token.operator? = some operator := by
  rcases token with ⟨⟨value, span⟩, kind⟩
  injection h with hkind hvalue
  have hkind : kind = operator.kind := hkind
  have hvalue : value = operator.spelling := hvalue
  rw [hkind, hvalue]
  cases operator <;> rfl

theorem pauses_operator {operator : Operator} {rest : List Piece} :
    Pauses (.operator operator :: rest) := by
  intro piece hpiece
  cases hpiece
  cases operator <;> rfl

theorem halts_operator {operator : Operator} {rest : List Piece} :
    Halts (.operator operator :: rest) := by
  constructor
  · exact pauses_operator
  · cases operator <;> simp [Piece.operator, Operator.kind]

end Piece

theorem Cursor.At.atOperator_ends {room : Nat} {rest : List Piece} {c : Cursor}
    (h : c.At room rest) (hrest : Ends rest) (least : Nat) :
    Grammar.atOperator least c = false := by
  have hkind : c.current.kind = headKind rest := h.kind_eq
  unfold Ends at hrest
  rw [← hkind] at hrest
  simp only [List.mem_cons, List.not_mem_nil, or_false] at hrest
  have hnone : c.current.operator? = none := by
    unfold Token.operator?
    rcases hrest with h | h | h | h | h <;> rw [h] <;> rfl
  rw [Grammar.atOperator, hnone]

namespace Expression

def Reads (expression : Expression) : Prop :=
  forall room rest, expression.levels <= room ->
    Accepts room (Grammar.subexpression (Level.ofRoom room)) (expression.print ++ rest) rest
      (fun read => read.erase = expression.erase)

theorem headKind_print {expression : Expression} (h : expression.isPrintable = true)
    (rest : List Piece) : headKind (expression.print ++ rest) ∈ Token.expressionStarts :=
  IsUnit.headKind_mem (print_isUnit h) (fun _ _ => startsExpression_opening) rest

theorem layout_of_expressionStarts : forall kind, kind ∈ Token.expressionStarts ->
    ¬ kind ∈ [Kind.lineBreak, .mark .closeParen] ∧ Grammar.separators.contains kind = false := by
  decide

variable {room least : Nat} {rest : List Piece} {expression : Expression}

theorem headKind_ne_lineBreak (h : expression.isPrintable = true) (rest : List Piece) :
    headKind (expression.print ++ rest) ≠ .lineBreak := by
  have hlayout := (layout_of_expressionStarts _ (headKind_print h rest)).1
  simp only [List.mem_cons, List.not_mem_nil, or_false, not_or] at hlayout
  exact hlayout.1

theorem inputs_accepts {inputs : List Expression} {after : List Piece}
    (hprintable : forall input, input ∈ inputs -> input.isPrintable = true)
    (hreads : forall input, input ∈ inputs -> input.Reads)
    (hlevels : forall input, input ∈ inputs -> input.levels <= room) (hafter : Pauses after) :
    Accepts room (Grammar.inputs (Level.ofRoom room)) (prints inputs ++ after) after
      (fun read => eraseAll read = eraseAll inputs) := by
  rw [prints_eq_flatMap]
  simp only [eraseAll_eq_map]
  exact Accepts.units (fun _ h => h) (fun _ _ => startsExpression_opening)
    (fun input hmem => print_isUnit (hprintable input hmem))
    (fun input hmem rest => hreads input hmem room rest (hlevels input hmem)) hafter

/-!
## Operands
-/

theorem operand_accepts {before after : List Piece} {good : Expression -> Prop} {level : Level}
    (hhead : headKind before ∈ Token.expressionStarts)
    (h : forall start, Accepts room (Grammar.callExpression level start) before after good) :
    Accepts room (Grammar.operand level) before after good := by
  apply Accepts.look
  intro start
  apply Accepts.kind
  have hcall := h start
  generalize headKind before = kind at hhead
  simp only [Token.expressionStarts, List.mem_cons, List.not_mem_nil, or_false] at hhead
  rcases hhead with rfl | rfl | rfl | rfl | rfl | rfl | rfl <;> exact hcall

theorem Reads.operand (hreads : expression.Reads) (hprintable : expression.isPrintable = true)
    (hlevels : expression.levels <= room) (hrest : Pauses rest) :
    Accepts room (Grammar.operand (Level.ofRoom room)) (expression.print ++ rest) rest
      (fun read => read.erase = expression.erase) := by
  apply operand_accepts (headKind_print hprintable rest)
  intro start
  apply Accepts.look
  intro textHead
  apply Accepts.bind (hreads room rest hlevels)
  intro head hhead
  apply Accepts.sees false (fun c hc => hc.pauses hrest)
  exact Accepts.pure hhead

theorem noFunction {before : List Piece} {level : Level}
    (h : (Token.patternStarts.contains (headKind before) && arrowFollows 0 true before) = false) :
    Accepts room (Grammar.functionLiteral level) before before (fun found => found = none) := by
  apply Accepts.look
  intro start
  apply Accepts.sees false (fun c hc => by rw [hc.mayBeFunction, h])
  apply Accepts.bind (Accepts.pure rfl)
  intro found hfound
  cases hfound
  exact Accepts.pure rfl

theorem binaryExpression_accepts {before after : List Piece} {good : Expression -> Prop}
    {level : Level}
    (hfunction : (Token.patternStarts.contains (headKind before) &&
      arrowFollows 0 true before) = false)
    (h : Accepts room (Grammar.operand level) before after good) (hafter : Ends after) :
    Accepts room (Grammar.binaryExpression level least) before after good := by
  apply Accepts.look
  intro start
  apply Accepts.bind (noFunction hfunction)
  intro function hnone
  rw [hnone]
  apply Accepts.bind h
  intro first hfirst
  apply Accepts.bind (Accepts.repeatNone (fun c hc => hc.atOperator_ends hafter least))
  intro later hlater
  rw [hlater]
  exact Accepts.pure hfirst

theorem Reads.binary (hreads : expression.Reads) (hprintable : expression.isPrintable = true)
    (hlevels : expression.levels <= room) (hrest : Ends rest) :
    Accepts room (Grammar.binaryExpression (Level.ofRoom room) least)
      (expression.print ++ rest) rest (fun read => read.erase = expression.erase) := by
  refine binaryExpression_accepts ?_ ?_ hrest
  · rw [(print_isUnit hprintable).refuses hrest.halts.refuses true, Bool.and_false]
  · exact hreads.operand hprintable hlevels hrest.halts.1

theorem Reads.element (hreads : expression.Reads) (hprintable : expression.isPrintable = true)
    (hlevels : expression.levels <= room) (hrest : Ends rest) :
    Accepts (room + 1) ((Level.ofRoom (room + 1)).expression least)
      (expression.print ++ rest) rest (fun read => read.erase = expression.erase) :=
  Accepts.nested (hreads.binary hprintable hlevels hrest)

theorem Reads.whole (hreads : expression.Reads) (hprintable : expression.isPrintable = true)
    (hlevels : expression.levels <= room) :
    Accepts (room + 1) (Grammar.expression (Level.ofRoom (room + 1)))
      (expression.print ++ lineBreak :: rest) (lineBreak :: rest)
      (fun read => read.erase = expression.erase) := by
  apply Accepts.look
  intro start
  apply Accepts.bind (hreads.element hprintable hlevels (by simp [Ends, lineBreak]))
  intro first hfirst
  apply Accepts.kind
  rw [if_neg (by simp [lineBreak, Grammar.separators])]
  exact Accepts.pure hfirst

/-!
## Forms in parentheses
-/

theorem group_accepts {inner : List Piece} {good : Expression -> Prop}
    (hhead : ¬ headKind (inner ++ mark .closeParen :: rest) ∈ [.lineBreak, .mark .closeParen])
    (hseparator : Grammar.separators.contains
      (headKind (inner ++ mark .closeParen :: rest)) = false)
    (h : Accepts room (Grammar.binaryExpression (Level.ofRoom room) 0)
      (inner ++ mark .closeParen :: rest) (mark .closeParen :: rest) good) :
    Accepts (room + 1) (Grammar.subexpression (Level.ofRoom (room + 1))) (parens inner ++ rest)
      rest good := by
  apply Accepts.kind
  apply Accepts.look
  intro start
  apply Accepts.bind (Accepts.enclosedGroup hhead hseparator rfl h.nested)
  intro form hform
  rcases hform with ⟨found, hform, hgood⟩
  apply Accepts.look
  intro span
  rw [hform]
  exact Accepts.pure hgood

theorem ends_closeParen {rest : List Piece} : Ends (mark .closeParen :: rest) := by
  simp [Ends, mark]

theorem halts_closeParen (rest : List Piece) : Halts (mark .closeParen :: rest) :=
  ends_closeParen.halts

theorem Reads.inParens (hreads : expression.Reads) (hprintable : expression.isPrintable = true)
    (hlevels : expression.levels <= room) :
    Accepts (room + 1) (Grammar.subexpression (Level.ofRoom (room + 1)))
      (parens expression.print ++ rest) rest (fun read => read.erase = expression.erase) := by
  have hlayout := layout_of_expressionStarts _
    (headKind_print hprintable (mark .closeParen :: rest))
  exact group_accepts hlayout.1 hlayout.2 (hreads.binary hprintable hlevels ends_closeParen)

theorem reserved_accepts {word : ReservedWord} {inner : List Piece} {good : Expression -> Prop}
    (h : Accepts room (Grammar.operand (Level.ofRoom room))
      (reserved word :: (inner ++ mark .closeParen :: rest)) (mark .closeParen :: rest) good) :
    Accepts (room + 1) (Grammar.subexpression (Level.ofRoom (room + 1)))
      (parens (reserved word :: inner) ++ rest) rest good := by
  apply group_accepts (by simp [reserved]) (by simp [reserved, Grammar.separators])
  exact binaryExpression_accepts rfl h ends_closeParen

theorem sequence_accepts {separator : Mark} {elements : List Expression} {build : Expression}
    (hseparator : Grammar.separators.contains (.mark separator) = true)
    (hends : forall rest, Ends (mark separator :: rest))
    (hbuild : forall read span, eraseAll read = eraseAll elements ->
      (Grammar.sequenceOf (.mark separator) read span).erase = build.erase)
    (hne : elements ≠ [])
    (hprintable : forall element, element ∈ elements -> element.isPrintable = true)
    (hreads : forall element, element ∈ elements -> element.Reads)
    (hlevels : forall element, element ∈ elements -> element.levels <= room) :
    Accepts (room + 1) (Grammar.subexpression (Level.ofRoom (room + 1)))
      (parens (printsBefore (mark separator) elements) ++ rest) rest
      (fun read => read.erase = build.erase) := by
  cases elements with
  | nil => exact absurd rfl hne
  | cons first more =>
      rw [printsBefore_eq_flatMap]
      apply Accepts.kind
      apply Accepts.look
      intro start
      apply Accepts.bind (Accepts.enclosedSequence hseparator
        (fun element hmem rest => (hreads element hmem).element (hprintable element hmem)
          (hlevels element hmem) (hends rest))
        (fun element hmem rest =>
          layout_of_expressionStarts _ (headKind_print (hprintable element hmem) rest)))
      intro form hform
      rcases hform with ⟨values, hform, hvalues⟩
      apply Accepts.look
      intro span
      rw [hform]
      exact Accepts.pure (hbuild values span (by rw [eraseAll_eq_map, eraseAll_eq_map, hvalues]))

theorem applied_accepts {head : List Piece} {inputs : List Expression}
    {good : Expression -> Prop} {best : Expression -> Prop}
    (hunit : IsUnit startsExpression head) (hne : inputs ≠ [])
    (hprintable : forall input, input ∈ inputs -> input.isPrintable = true)
    (hreads : forall input, input ∈ inputs -> input.Reads)
    (hlevels : forall input, input ∈ inputs -> input.levels <= room)
    (hhead : forall rest, Accepts room (Grammar.subexpression (Level.ofRoom room))
      (head ++ rest) rest good)
    (hbest : forall found read span, good found -> eraseAll read = eraseAll inputs ->
      best (Grammar.applied (headKind head == .text) found read span)) :
    Accepts (room + 1) (Grammar.subexpression (Level.ofRoom (room + 1)))
      (parens (head ++ prints inputs) ++ rest) rest best := by
  rcases hunit.begins (fun _ _ => startsExpression_opening) with ⟨piece, more, hpieces, hpiece⟩
  have hstarts : headKind (head ++ prints inputs ++ mark .closeParen :: rest) ∈
      Token.expressionStarts := by
    rw [hpieces]
    simp only [startsExpression, Bool.and_eq_true, List.contains_eq_mem,
      decide_eq_true_eq] at hpiece
    exact hpiece.1
  have hlayout := layout_of_expressionStarts _ hstarts
  have htext : headKind (head ++ prints inputs ++ mark .closeParen :: rest) = headKind head := by
    rw [hpieces]
    rfl
  apply group_accepts hlayout.1 hlayout.2
  refine binaryExpression_accepts ?_ ?_ ends_closeParen
  · have hinputs := refuses_flatMap
      (fun input hmem => print_isUnit (hprintable input hmem))
      (halts_closeParen rest).refuses
    rw [List.append_assoc, prints_eq_flatMap, hunit.refuses hinputs true, Bool.and_false]
  · apply operand_accepts hstarts
    intro start
    apply Accepts.isAt
    rw [htext, List.append_assoc]
    apply Accepts.bind (hhead _)
    intro found hfound
    refine Accepts.sees true (fun c hc => ?_) ?_
    · cases inputs with
      | nil => exact absurd rfl hne
      | cons first later =>
          rcases (print_isUnit (hprintable first (by simp))).begins
            (fun _ _ => startsExpression_opening) with ⟨piece, more, hprint, hstart⟩
          rw [prints, hprint, List.cons_append, List.cons_append] at hc
          have hcurrent : startsExpression c.current.piece = true := by
            rw [hc.piece_current, hstart]
          exact hcurrent
    · apply Accepts.bind (inputs_accepts hprintable hreads hlevels (pauses_mark rfl))
      intro read hread
      apply Accepts.look
      intro span
      exact Accepts.pure (hbest found read span hfound hread)

theorem isText_of_erase {read expression : Expression} (h : read.erase = expression.erase) :
    read.isText = expression.isText := by
  cases read <;> cases expression <;> first | rfl | (simp [erase] at h)

theorem erase_applied {textHead : Bool} {head function : Expression}
    {read inputs : List Expression} {span span' : Span}
    (htext : (textHead && function.isText) = false) (hhead : head.erase = function.erase)
    (hread : eraseAll read = eraseAll inputs) :
    (Grammar.applied textHead head read span).erase = (call function inputs span').erase := by
  rw [← isText_of_erase hhead] at htext
  have hcall : Grammar.applied textHead head read span = call head read span := by
    cases textHead with
    | false => rfl
    | true => cases head <;> first | rfl | cases htext
  rw [hcall]
  simp [erase, hhead, hread]

theorem call_accepts {function : Expression} {inputs : List Expression} {span : Span}
    (htext : function.isText = false) (hfunction : function.isPrintable = true)
    (hfunctionReads : function.Reads) (hfunctionLevels : function.levels <= room)
    (hne : inputs ≠ [])
    (hprintable : forall input, input ∈ inputs -> input.isPrintable = true)
    (hreads : forall input, input ∈ inputs -> input.Reads)
    (hlevels : forall input, input ∈ inputs -> input.levels <= room) :
    Accepts (room + 1) (Grammar.subexpression (Level.ofRoom (room + 1)))
      (parens (function.print ++ prints inputs) ++ rest) rest
      (fun read => read.erase = (call function inputs span).erase) := by
  apply applied_accepts (print_isUnit hfunction) hne hprintable hreads hlevels
    (fun rest => hfunctionReads room rest hfunctionLevels)
  intro found read span' hfound hread
  exact erase_applied (by simp [htext]) hfound hread

theorem textCall_accepts {function : Expression} {inputs : List Expression} {span : Span}
    (hfunction : function.isPrintable = true)
    (hfunctionReads : function.Reads) (hfunctionLevels : function.levels <= room)
    (hne : inputs ≠ [])
    (hprintable : forall input, input ∈ inputs -> input.isPrintable = true)
    (hreads : forall input, input ∈ inputs -> input.Reads)
    (hlevels : forall input, input ∈ inputs -> input.levels <= room + 1) :
    Accepts (room + 2) (Grammar.subexpression (Level.ofRoom (room + 2)))
      (parens (parens function.print ++ prints inputs) ++ rest) rest
      (fun read => read.erase = (call function inputs span).erase) := by
  apply applied_accepts (IsUnit.parens (print_isUnit hfunction).nested) hne hprintable hreads
    hlevels (fun rest => hfunctionReads.inParens hfunction hfunctionLevels)
  intro found read span' hfound hread
  exact erase_applied (by simp [parens, mark]) hfound hread

theorem text_accepts {literal : Lexeme} {level : Level} :
    Accepts room (Grammar.subexpression level) (.text literal :: rest) rest
      (fun read => exists found, read = text found ∧ found.erase = literal.erase) :=
  Accepts.kind (Accepts.bind (Accepts.text literal)
    (fun found hfound => Accepts.pure ⟨found, rfl, hfound⟩))

theorem formattedText_accepts {literal : Lexeme} {inputs : List Expression} {span : Span}
    (hne : inputs ≠ [])
    (hprintable : forall input, input ∈ inputs -> input.isPrintable = true)
    (hreads : forall input, input ∈ inputs -> input.Reads)
    (hlevels : forall input, input ∈ inputs -> input.levels <= room) :
    Accepts (room + 1) (Grammar.subexpression (Level.ofRoom (room + 1)))
      ((formattedText literal inputs span).print ++ rest) rest
      (fun read => read.erase = (formattedText literal inputs span).erase) := by
  rw [print, ← List.singleton_append]
  apply applied_accepts (IsUnit.text rfl) hne hprintable hreads hlevels
    (fun rest => text_accepts)
  rintro found read span' ⟨lexeme, rfl, hlexeme⟩ hread
  show (formattedText lexeme read span').erase = _
  simp [erase, hlexeme, hread]

theorem perform_accepts {input : Expression} {span : Span} (hreads : input.Reads)
    (hlevels : input.levels <= room) :
    Accepts (room + 1) (Grammar.subexpression (Level.ofRoom (room + 1)))
      ((perform input span).print ++ rest) rest
      (fun read => read.erase = (perform input span).erase) := by
  rw [print]
  apply reserved_accepts
  refine Accepts.look (fun start => Accepts.kind ?_)
  apply Accepts.bind Accepts.advance
  intro _ _
  apply Accepts.bind (hreads room _ hlevels)
  intro read hread
  apply Accepts.look
  intro span
  exact Accepts.pure (by simp [erase, hread])

theorem intrinsic_accepts {name : Lexeme} {inputs : List Expression} {span : Span}
    (hprintable : forall input, input ∈ inputs -> input.isPrintable = true)
    (hreads : forall input, input ∈ inputs -> input.Reads)
    (hlevels : forall input, input ∈ inputs -> input.levels <= room) :
    Accepts (room + 1) (Grammar.subexpression (Level.ofRoom (room + 1)))
      ((intrinsic name inputs span).print ++ rest) rest
      (fun read => read.erase = (intrinsic name inputs span).erase) := by
  rw [print]
  apply reserved_accepts
  refine Accepts.look (fun start => Accepts.kind ?_)
  apply Accepts.bind Accepts.advance
  intro _ _
  rw [List.cons_append]
  apply Accepts.bind (Accepts.text name)
  intro found hfound
  apply Accepts.bind (inputs_accepts hprintable hreads hlevels (pauses_mark rfl))
  intro read hread
  apply Accepts.look
  intro span
  exact Accepts.pure (by simp [erase, hfound, hread])

/-!
### Arms
-/

theorem arm_accepts {arm : Entry Pattern Expression} (hkey : arm.key.isPrintable = true)
    (hkeyLevels : arm.key.levels <= room) (hvalue : arm.value.isPrintable = true)
    (hvalueReads : arm.value.Reads) (hvalueLevels : arm.value.levels <= room) :
    Accepts (room + 1) (Grammar.arm (Level.ofRoom (room + 1)))
      (printArm arm ++ lineBreak :: rest) (lineBreak :: rest)
      (fun read => eraseArm read = eraseArm arm) := by
  rw [printArm, List.append_assoc, List.cons_append]
  apply Accepts.look
  intro start
  apply Accepts.bind ((arm.key.reads hkey).whole hkey hkeyLevels (by simp [mark]))
  intro key hread
  apply Accepts.bind (Accepts.expectMark .arrow)
  intro _ _
  apply Accepts.bind (Accepts.noLineBreaks (headKind_ne_lineBreak hvalue _))
  intro _ _
  apply Accepts.bind (hvalueReads.whole hvalue hvalueLevels)
  intro value hread'
  apply Accepts.look
  intro span
  exact Accepts.pure (by simp [eraseArm, hread, hread'])

theorem when_accepts {input : Expression} {arms : List (Entry Pattern Expression)} {span : Span}
    (hreads : input.Reads) (hlevels : input.levels <= room)
    (hprintable : arePrintableArms arms = true)
    (harms : forall arm, arm ∈ arms -> arm.value.Reads)
    (harmsLevels : levelsOfArms arms <= room) :
    Accepts (room + 1) (Grammar.subexpression (Level.ofRoom (room + 1)))
      ((when input arms span).print ++ rest) rest
      (fun read => read.erase = (when input arms span).erase) := by
  rw [arePrintableArms_iff] at hprintable
  rw [levelsOfArms_le_iff] at harmsLevels
  have hlines : Accepts room (lines (.mark .closeCurly) (Grammar.arm (Level.ofRoom room)))
      (arms.flatMap (fun arm => printArm arm ++ [lineBreak]) ++
        mark .closeCurly :: mark .closeParen :: rest)
      (mark .closeCurly :: mark .closeParen :: rest)
      (fun read => read.map eraseArm = arms.map eraseArm) := by
    refine Accepts.lines ?_ ?_ rfl (by decide)
    · intro arm hmem behind
      have harm := harmsLevels arm hmem
      cases room with
      | zero => omega
      | succ room =>
          exact arm_accepts (hprintable arm hmem).1 (by omega) (hprintable arm hmem).2
            (harms arm hmem) (by omega)
    · intro arm hmem behind
      have hstarts : forall kind, kind ∈ Token.patternStarts ->
          ¬ kind ∈ [Kind.lineBreak, .mark .closeCurly, .endOfInput] := by
        decide
      rw [printArm, List.append_assoc]
      exact hstarts _ (Pattern.headKind_print (hprintable arm hmem).1 _)
  rw [print, printArms_eq_flatMap]
  apply reserved_accepts
  rw [List.append_assoc, braces, List.cons_append, List.append_assoc, List.singleton_append]
  refine Accepts.look (fun start => Accepts.kind ?_)
  apply Accepts.bind (Accepts.expect (reserved .whenWord))
  intro _ _
  apply Accepts.bind (hreads room _ hlevels)
  intro read hread
  apply Accepts.bind (Accepts.expectMark .openCurly)
  intro _ _
  apply Accepts.bind hlines
  intro found hfound
  apply Accepts.bind (Accepts.expectMark .closeCurly)
  intro _ _
  apply Accepts.look
  intro span
  exact Accepts.pure (by simp [erase, eraseArms_eq_map, hread, hfound])

/-!
### Operators
-/

theorem rightOperand_accepts {operator : Operator} {right : Operand}
    (hfits : right.fits operator = true) (hprintable : right.isPrintable = true)
    (hreads : right.Each Reads) (hlevels : right.levels <= room) (hrest : Ends rest) :
    Accepts room (Grammar.rightOperand (Level.ofRoom room) operator) (right.print ++ rest) rest
      (fun read => read.erase = right.erase) := by
  unfold Grammar.rightOperand
  cases right with
  | expression found =>
      have hright : operator.right = .expression := by simpa [Operand.fits] using hfits
      rw [hright]
      cases room with
      | zero => cases hlevels
      | succ room =>
          apply Accepts.bind (Reads.element hreads hprintable (Nat.le_of_succ_le_succ hlevels)
            hrest)
          intro read hread
          exact Accepts.pure (by simp [Operand.erase, hread])
  | pattern found =>
      have hright : operator.right = .pattern := by simpa [Operand.fits] using hfits
      rw [hright]
      apply Accepts.bind ((found.reads hprintable).operand hprintable hlevels)
      intro read hread
      exact Accepts.pure (by simp [Operand.erase, hread])
  | type found =>
      have hright : operator.right = .type := by simpa [Operand.fits] using hfits
      rw [hright]
      cases room with
      | zero => cases hlevels
      | succ room =>
          apply Accepts.bind ((found.reads hprintable).element
            (Nat.le_of_succ_le_succ hlevels) hrest.halts)
          intro read hread
          exact Accepts.pure (by simp [Operand.erase, hread])

theorem headKind_operand {right : Operand} (hprintable : right.isPrintable = true)
    (rest : List Piece) : headKind (right.print ++ rest) ≠ .lineBreak := by
  cases right with
  | expression found => exact headKind_ne_lineBreak hprintable rest
  | pattern found => exact Pattern.headKind_ne_lineBreak hprintable rest
  | type found => exact TypeExpr.headKind_ne_lineBreak hprintable rest

theorem continuations_accepts {operator : Operator} {right : Operand} {start : Span}
    (hfits : right.fits operator = true) (hprintable : right.isPrintable = true)
    (hreads : right.Each Reads) (hlevels : right.levels <= room) (hrest : Ends rest) :
    Accepts room
      (repeatWhile (Grammar.atOperator 0) (Grammar.continuation (Level.ofRoom room) start))
      (.operator operator :: (right.print ++ rest)) rest
      (fun found => exists next, found = [next] ∧ next.operator = operator ∧
        next.right.erase = right.erase) := by
  refine Accepts.repeatOnce ?_ (fun c hc => ?_) (fun c hc => hc.atOperator_ends hrest 0)
  · apply Accepts.bind Accepts.advance
    intro token htoken
    apply Accepts.bind (Accepts.noLineBreaks (headKind_operand hprintable rest))
    intro _ _
    rw [operator?_of_piece htoken]
    apply Accepts.bind (rightOperand_accepts hfits hprintable hreads hlevels hrest)
    intro read hread
    apply Accepts.look
    intro span
    exact Accepts.pure ⟨rfl, hread⟩
  · rw [Grammar.atOperator, operator?_of_piece hc.piece_current]
    simp

theorem binary_accepts {operator : Operator} {left : Expression} {right : Operand} {span : Span}
    (hleft : left.isPrintable = true) (hleftReads : left.Reads)
    (hleftLevels : left.levels <= room) (hfits : right.fits operator = true)
    (hright : right.isPrintable = true) (hrightReads : right.Each Reads)
    (hrightLevels : right.levels <= room) :
    Accepts (room + 1) (Grammar.subexpression (Level.ofRoom (room + 1)))
      ((binary operator left right span).print ++ rest) rest
      (fun read => read.erase = (binary operator left right span).erase) := by
  rw [print]
  have hinner : left.print ++ .operator operator :: right.print ++ mark .closeParen :: rest =
      left.print ++ .operator operator :: (right.print ++ mark .closeParen :: rest) := by
    rw [List.append_assoc, List.cons_append]
  have hlayout := layout_of_expressionStarts _
    (headKind_print hleft (.operator operator :: (right.print ++ mark .closeParen :: rest)))
  rw [← hinner] at hlayout
  apply group_accepts hlayout.1 hlayout.2
  rw [hinner]
  apply Accepts.look
  intro start
  refine Accepts.bind (noFunction ?_) (fun function hnone => ?_)
  · rw [(print_isUnit hleft).refuses halts_operator.refuses true, Bool.and_false]
  · rw [hnone]
    apply Accepts.bind (hleftReads.operand hleft hleftLevels pauses_operator)
    intro first hfirst
    apply Accepts.bind (continuations_accepts hfits hright hrightReads hrightLevels
      ends_closeParen)
    intro found hfound
    rcases hfound with ⟨next, hone, hoperator, hread⟩
    rw [hone]
    exact Accepts.pure (by
      simp [Grammar.applyContinuations, erase, hfirst, hoperator, hread])

/-!
### Function literals
-/

theorem functionInputs_accepts {inputs : List Pattern} (hne : inputs ≠ [])
    (hprintable : forall input, input ∈ inputs -> input.isPrintable = true)
    (hlevels : forall input, input ∈ inputs -> input.levels <= room) :
    Accepts room (Grammar.functionInputs (Level.ofRoom room))
      (Pattern.prints inputs ++ mark .arrow :: rest) rest
      (fun read => Pattern.eraseAll read = Pattern.eraseAll inputs) := by
  cases inputs with
  | nil => exact absurd rfl hne
  | cons input more =>
      rw [Pattern.prints, List.append_assoc]
      apply Accepts.bind (input.reads (hprintable input (by simp)) room _
        (hlevels input (by simp)))
      intro first hfirst
      apply Accepts.bind (Pattern.subpatterns_accepts
        (fun pattern hmem => hprintable pattern (by simp [hmem]))
        (fun pattern hmem => pattern.reads (hprintable pattern (by simp [hmem])))
        (fun pattern hmem => hlevels pattern (by simp [hmem])) (pauses_mark rfl))
      intro later hlater
      apply Accepts.bind (Accepts.expectMark .arrow)
      intro _ _
      exact Accepts.pure (by simp [Pattern.eraseAll, hfirst, hlater])

theorem functionLiteral_accepts {inputs : List Pattern} {output : Expression} (span : Span)
    (hne : inputs ≠ [])
    (hprintable : forall input, input ∈ inputs -> input.isPrintable = true)
    (hlevels : forall input, input ∈ inputs -> input.levels <= room + 1)
    (houtput : output.isPrintable = true) (hreads : output.Reads)
    (houtputLevels : output.levels <= room) (hrest : Ends rest)
    (hhead : headKind (Pattern.prints inputs ++ mark .arrow :: (output.print ++ rest)) ∈
      Token.patternStarts) :
    Accepts (room + 1) (Grammar.functionLiteral (Level.ofRoom (room + 1)))
      (Pattern.prints inputs ++ mark .arrow :: (output.print ++ rest)) rest
      (fun found => exists read, found = some read ∧
        read.erase = (function inputs output span).erase) := by
  apply Accepts.look
  intro start
  refine Accepts.sees true (fun c hc => ?_) ?_
  · rw [hc.mayBeFunction, Pattern.prints_eq_flatMap, arrowFollows_flatMap
      (fun input hmem => Pattern.print_isUnit (hprintable input hmem)), Bool.and_true,
      ← Pattern.prints_eq_flatMap]
    simpa using hhead
  · apply Accepts.bind (functionInputs_accepts hne hprintable hlevels).speculate
    intro found hfound
    rcases hfound with ⟨read, hfound, hread⟩
    rw [hfound]
    apply Accepts.bind (Accepts.noLineBreaks (headKind_ne_lineBreak houtput _))
    intro _ _
    apply Accepts.bind (hreads.element houtput houtputLevels hrest)
    intro value hvalue
    apply Accepts.look
    intro span
    exact Accepts.pure ⟨_, rfl, by simp [erase, hread, hvalue]⟩

theorem function_accepts {inputs : List Pattern} {output : Expression} {span : Span}
    (hne : inputs ≠ [])
    (hprintable : forall input, input ∈ inputs -> input.isPrintable = true)
    (hlevels : forall input, input ∈ inputs -> input.levels <= room + 1)
    (houtput : output.isPrintable = true) (hreads : output.Reads)
    (houtputLevels : output.levels <= room) :
    Accepts (room + 2) (Grammar.subexpression (Level.ofRoom (room + 2)))
      ((function inputs output span).print ++ rest) rest
      (fun read => read.erase = (function inputs output span).erase) := by
  have hhead : forall behind, headKind (Pattern.prints inputs ++ behind) ∈
      Token.patternStarts := by
    intro behind
    cases inputs with
    | nil => exact absurd rfl hne
    | cons input more =>
        rw [Pattern.prints, List.append_assoc]
        exact Pattern.headKind_print (hprintable input (by simp)) _
  have hsubset : forall kind, kind ∈ Token.patternStarts -> kind ∈ Token.expressionStarts := by
    decide
  have hinner : Pattern.prints inputs ++ mark .arrow :: output.print ++ mark .closeParen :: rest =
      Pattern.prints inputs ++ mark .arrow :: (output.print ++ mark .closeParen :: rest) := by
    rw [List.append_assoc, List.cons_append]
  rw [print]
  have hlayout := layout_of_expressionStarts _ (hsubset _ (hhead
    (mark .arrow :: (output.print ++ mark .closeParen :: rest))))
  rw [← hinner] at hlayout
  apply group_accepts hlayout.1 hlayout.2
  rw [hinner]
  apply Accepts.look
  intro start
  apply Accepts.bind (functionLiteral_accepts span hne hprintable hlevels houtput hreads
    houtputLevels ends_closeParen (hhead _))
  intro found hfound
  rcases hfound with ⟨read, hfound, hread⟩
  rw [hfound]
  exact Accepts.pure hread

end Expression

end Linewise
