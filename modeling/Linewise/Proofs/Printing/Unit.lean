import Linewise.Grammar.Expression
import Linewise.Proofs.Printing.Acceptance
import Linewise.Proofs.Printing.Induction

/-!
# Units

What is printed for a tree is a single word, or stands in brackets of its own.
Inside the brackets every bracket has its partner.  So looking ahead for an arrow
passes over what is printed as if it were one word.
-/

namespace Linewise
namespace Piece

/-!
## Nested brackets
-/

theorem isSound_mark (found : Mark) : (mark found).IsSound :=
  ⟨Kind.noConfusion, Kind.noConfusion, fun h => Kind.noConfusion h⟩

def isBare (kind : Kind) : Bool :=
  Bracket.plain kind && kind != .comment && kind != .endOfInput && kind != .text

inductive Partners : Mark -> Mark -> Prop where
  | round : Partners .openParen .closeParen
  | curly : Partners .openCurly .closeCurly

def between (opening closing : Mark) (inner : List Piece) : List Piece :=
  mark opening :: (inner ++ [mark closing])

inductive Nested : List Piece -> Prop where
  | nil : Nested []
  | word {piece : Piece} {rest : List Piece} (hsound : piece.IsSound)
      (hplain : Bracket.plain piece.1 = true) (hrest : Nested rest) : Nested (piece :: rest)
  | group {opening closing : Mark} {inner rest : List Piece} (h : Partners opening closing)
      (hinner : Nested inner) (hrest : Nested rest) :
      Nested (between opening closing inner ++ rest)

namespace Nested

theorem append {first second : List Piece} (hfirst : Nested first) (hsecond : Nested second) :
    Nested (first ++ second) := by
  induction hfirst with
  | nil => exact hsecond
  | word hsound hplain _ ih => exact word hsound hplain ih
  | group h hinner _ _ ih =>
      rw [List.append_assoc]
      exact group h hinner ih

theorem bare {piece : Piece} {rest : List Piece} (h : isBare piece.1 = true)
    (hrest : Nested rest) : Nested (piece :: rest) := by
  simp only [isBare, Bool.and_eq_true, bne_iff_ne] at h
  rcases h with ⟨⟨⟨hplain, hcomment⟩, hend⟩, htext⟩
  exact word ⟨hcomment, hend, fun h => absurd h htext⟩ hplain hrest

theorem text (lexeme : Lexeme) {rest : List Piece} (hrest : Nested rest) :
    Nested (.text lexeme :: rest) :=
  word ⟨Kind.noConfusion, Kind.noConfusion, fun _ => ⟨lexeme.value, rfl⟩⟩ rfl hrest

theorem between {opening closing : Mark} {inner : List Piece} (h : Partners opening closing)
    (hinner : Nested inner) : Nested (between opening closing inner) := by
  simpa using group h hinner nil

theorem parens {inner : List Piece} (h : Nested inner) : Nested (parens inner) :=
  between .round h

theorem braces {inner : List Piece} (h : Nested inner) : Nested (braces inner) :=
  between .curly h

theorem flatMap {τ : Type} {print : τ -> List Piece} {xs : List τ}
    (h : forall x, x ∈ xs -> Nested (print x)) : Nested (xs.flatMap print) := by
  induction xs with
  | nil => exact nil
  | cons x xs ih =>
      rw [List.flatMap_cons]
      exact (h x (by simp)).append (ih (fun y hy => h y (by simp [hy])))

theorem flatBefore {τ : Type} {print : τ -> List Piece} {separator : Piece} {xs : List τ}
    (hseparator : isBare separator.1 = true) (h : forall x, x ∈ xs -> Nested (print x)) :
    Nested (xs.flatMap (fun x => print x ++ [separator])) :=
  flatMap (fun x hx => (h x hx).append (bare hseparator nil))

theorem sound {pieces : List Piece} (h : Nested pieces) :
    forall piece, piece ∈ pieces -> piece.IsSound := by
  induction h with
  | nil => simp
  | word hsound _ _ ih => exact List.forall_mem_cons.mpr ⟨hsound, ih⟩
  | group _ _ _ hinner hrest =>
      intro piece hmem
      simp only [Piece.between, List.cons_append, List.mem_cons, List.mem_append,
        List.not_mem_nil, or_false] at hmem
      rcases hmem with rfl | (hmem | rfl) | hmem
      · exact isSound_mark _
      · exact hinner piece hmem
      · exact isSound_mark _
      · exact hrest piece hmem

theorem matched {pieces : List Piece} (h : Nested pieces) :
    Bracket.Matched (pieces.map Prod.fst) := by
  induction h with
  | nil => rfl
  | word _ hplain _ ih =>
      unfold Bracket.Matched
      rw [List.map_cons, Bracket.unwind_cons, Bracket.step_plain hplain]
      exact ih
  | group h _ _ hinner hrest =>
      unfold Bracket.Matched
      simp only [Piece.between, mark, List.map_cons, List.map_append, List.map_nil,
        List.cons_append, List.append_assoc, Bracket.unwind_cons, Bracket.unwind_append]
      cases h with
      | round =>
          simp only [Bracket.step, Kind.opened?, Option.bind_some, hinner.unwind]
          exact hrest
      | curly =>
          simp only [Bracket.step, Kind.opened?, Option.bind_some, hinner.unwind]
          exact hrest

end Nested

/-!
## Units
-/

inductive IsUnit (starts : Piece -> Bool) : List Piece -> Prop where
  | atom {piece : Piece} (hstarts : starts piece = true) (hsound : piece.IsSound)
      (hplain : Bracket.plain piece.1 = true) : IsUnit starts [piece]
  | group {opening closing : Mark} {inner : List Piece} (h : Partners opening closing)
      (hinner : Nested inner) : IsUnit starts (between opening closing inner)

namespace IsUnit

variable {starts starts' : Piece -> Bool} {pieces : List Piece}

theorem bare {piece : Piece} (hstarts : starts piece = true) (h : isBare piece.1 = true) :
    IsUnit starts [piece] := by
  simp only [isBare, Bool.and_eq_true, bne_iff_ne] at h
  rcases h with ⟨⟨⟨hplain, hcomment⟩, hend⟩, htext⟩
  exact atom hstarts ⟨hcomment, hend, fun h => absurd h htext⟩ hplain

theorem text {lexeme : Lexeme} (hstarts : starts (.text lexeme) = true) :
    IsUnit starts [.text lexeme] :=
  atom hstarts ⟨Kind.noConfusion, Kind.noConfusion, fun _ => ⟨lexeme.value, rfl⟩⟩ rfl

theorem parens {inner : List Piece} (h : Nested inner) : IsUnit starts (parens inner) :=
  group .round h

theorem braces {inner : List Piece} (h : Nested inner) : IsUnit starts (braces inner) :=
  group .curly h

theorem restart (h : IsUnit starts pieces)
    (hstarts : forall piece, pieces = [piece] -> starts' piece = true) :
    IsUnit starts' pieces := by
  cases h with
  | atom _ hsound hplain => exact atom (hstarts _ rfl) hsound hplain
  | group h hinner => exact group h hinner

theorem nested (h : IsUnit starts pieces) : Nested pieces := by
  cases h with
  | atom _ hsound hplain => exact .word hsound hplain .nil
  | group h hinner => exact .between h hinner

theorem begins (h : IsUnit starts pieces)
    (hgroup : forall opening closing, Partners opening closing -> starts (mark opening) = true) :
    exists piece rest, pieces = piece :: rest ∧ starts piece = true := by
  cases h with
  | atom hstarts _ _ => exact ⟨_, _, rfl, hstarts⟩
  | group h _ => exact ⟨_, _, rfl, hgroup _ _ h⟩

theorem headKind_mem {kinds : List Kind}
    (h : IsUnit (fun piece => kinds.contains piece.1 && !piece.isOperatorWord) pieces)
    (hgroup : forall opening closing, Partners opening closing ->
      (kinds.contains (mark opening).1 && !(mark opening).isOperatorWord) = true)
    (rest : List Piece) : headKind (pieces ++ rest) ∈ kinds := by
  rcases h.begins hgroup with ⟨piece, more, hpieces, hpiece⟩
  rw [hpieces, List.cons_append, headKind_cons]
  simp only [Bool.and_eq_true, List.contains_eq_mem, decide_eq_true_eq] at hpiece
  exact hpiece.1

end IsUnit

end Piece

/-!
## Trees are printed as units
-/

open Linewise.Piece

abbrev Piece.IsClosed (pieces : List Piece) : Prop := IsUnit (fun _ => true) pieces

theorem TypeExpr.print_isClosed (type : TypeExpr) : IsClosed type.print := by
  induction type using TypeExpr.treeInduction with
  | placeholder span => exact .bare rfl rfl
  | parameter name => exact .bare rfl rfl
  | named name parameters span ih =>
      rw [print]
      split
      · exact .bare rfl rfl
      · rw [prints_eq_flatMap]
        exact .parens (.bare rfl (.flatMap (fun type hmem => (ih type hmem).nested)))
  | function inputs output span hinputs houtput =>
      rw [print, prints_eq_flatMap]
      have hprints : Nested (inputs.flatMap print) :=
        .flatMap (fun type hmem => (hinputs type hmem).nested)
      exact .parens (hprints.append (.bare rfl houtput.nested))
  | block output span houtput =>
      rw [print]
      exact .braces (houtput.nested.append (.bare rfl .nil))
  | unit span => exact .parens .nil
  | tuple elements span ih =>
      rw [print]
      split
      · exact .parens (.bare rfl .nil)
      · rw [printsBefore_eq_flatMap]
        exact .parens (.flatBefore rfl (fun element hmem => (ih element hmem).nested))

theorem Pattern.print_isClosed (pattern : Pattern) : IsClosed pattern.print := by
  induction pattern using Pattern.treeInduction with
  | wildcard span => exact .bare rfl rfl
  | «variable» name => exact .bare rfl rfl
  | number literal => exact .bare rfl rfl
  | text literal => exact .text rfl
  | destructure fields span ih =>
      rw [print, printFields_eq_flatMap]
      refine .braces (.flatBefore rfl (fun field hmem => ?_))
      exact .bare rfl (.bare rfl (ih field hmem).nested)
  | unit span => exact .parens .nil
  | tuple elements span ih =>
      rw [print]
      split
      · exact .parens (.bare rfl .nil)
      · rw [printsBefore_eq_flatMap]
        exact .parens (.flatBefore rfl (fun element hmem => (ih element hmem).nested))
  | or left right span hleft hright =>
      rw [print]
      exact .parens (hleft.nested.append (.bare rfl hright.nested))
  | annotate pattern type span ih =>
      rw [print]
      exact .parens (ih.nested.append (.bare rfl type.print_isClosed.nested))
  | set name span => exact .parens (.bare rfl (.bare rfl .nil))
  | variant name elements span ih =>
      rw [print, prints_eq_flatMap]
      exact .parens (.bare rfl (.flatMap (fun element hmem => (ih element hmem).nested)))

theorem Operator.isBare_kind (operator : Operator) : isBare operator.kind = true := by
  cases operator <;> rfl

theorem Operand.print_nested {operand : Operand}
    (h : operand.Each (fun expression => IsClosed expression.print)) : Nested operand.print := by
  cases operand with
  | expression expression => exact IsUnit.nested h
  | pattern pattern => exact pattern.print_isClosed.nested
  | type type => exact type.print_isClosed.nested

theorem Statement.print_nested {statement : Statement}
    (h : statement.Each (fun expression => IsClosed expression.print)) :
    Nested statement.print := by
  cases statement with
  | assignment pattern value span =>
      exact pattern.print_isClosed.nested.append (.bare rfl (IsUnit.nested h))
  | expression expression span => exact IsUnit.nested h
  | _ => exact .nil

theorem Expression.print_isClosed (expression : Expression) : IsClosed expression.print := by
  induction expression using Expression.treeInduction with
  | placeholder span => exact .bare rfl rfl
  | «variable» name => exact .bare rfl rfl
  | typeName name => exact .bare rfl rfl
  | number literal => exact .bare rfl rfl
  | text literal => exact .text rfl
  | unit span => exact .parens .nil
  | record fields span ih =>
      rw [print, printFields_eq, Statement.prints_eq_flatMap]
      refine .braces (.flatBefore rfl (fun statement hmem => ?_))
      rcases List.mem_map.mp hmem with ⟨field, hfield, rfl⟩
      have hstatement : Nested field.toStatement.print := Statement.print_nested (ih field hfield)
      exact hstatement
  | block statements span ih =>
      rw [print, Statement.prints_eq_flatMap]
      refine .braces (.flatBefore rfl (fun statement hmem => ?_))
      exact Statement.print_nested (ih statement hmem)
  | formattedText text inputs span ih =>
      rw [print, prints_eq_flatMap]
      exact .parens (.text text (.flatMap (fun input hmem => (ih input hmem).nested)))
  | call function inputs span hfunction hinputs =>
      have hprints : Nested (inputs.flatMap print) :=
        .flatMap (fun input hmem => (hinputs input hmem).nested)
      rw [print, prints_eq_flatMap]
      split
      · exact .parens (hfunction.nested.parens.append hprints)
      · exact .parens (hfunction.nested.append hprints)
  | perform input span ih =>
      rw [print]
      exact .parens (.bare rfl ih.nested)
  | «when» input arms span hinput harms =>
      have hlines : Nested (printArms arms) := by
        rw [printArms_eq_flatMap]
        refine .flatBefore rfl (fun arm hmem => ?_)
        exact arm.key.print_isClosed.nested.append (.bare rfl (harms arm hmem).nested)
      rw [print]
      exact .parens (.bare rfl (hinput.nested.append hlines.braces))
  | intrinsic name inputs span ih =>
      rw [print, prints_eq_flatMap]
      exact .parens (.bare rfl (.text name (.flatMap (fun input hmem => (ih input hmem).nested))))
  | binary operator left right span hleft hright =>
      have hoperator : Nested (.operator operator :: right.print) :=
        .bare operator.isBare_kind (Operand.print_nested hright)
      rw [print]
      exact .parens (hleft.nested.append hoperator)
  | tuple elements span ih =>
      rw [print]
      split
      · exact .parens (.bare rfl .nil)
      · rw [printsBefore_eq_flatMap]
        exact .parens (.flatBefore rfl (fun element hmem => (ih element hmem).nested))
  | collection elements span ih =>
      rw [print]
      split
      · exact .parens (.bare rfl .nil)
      · rw [printsBefore_eq_flatMap]
        exact .parens (.flatBefore rfl (fun element hmem => (ih element hmem).nested))
  | function inputs output span ih =>
      have hinputs : Nested (inputs.flatMap Pattern.print) :=
        .flatMap (fun input _ => input.print_isClosed.nested)
      rw [print, Pattern.prints_eq_flatMap]
      exact .parens (hinputs.append (.bare rfl ih.nested))

/-!
### How trees begin
-/

theorem TypeExpr.print_isUnit {type : TypeExpr} (h : type.isPrintable = true) :
    IsUnit startsType type.print := by
  apply type.print_isClosed.restart
  intro piece hpiece
  cases type with
  | placeholder span =>
      cases hpiece
      rfl
  | parameter name =>
      cases hpiece
      have hfree : name.isFree = true := h
      simpa [startsType, isOperatorWord, Lexeme.isFree, Token.typeStarts] using hfree
  | named name parameters span =>
      rw [print] at hpiece
      split at hpiece
      · cases hpiece
        rfl
      · simp [Piece.parens] at hpiece
  | tuple elements span =>
      rw [print] at hpiece
      split at hpiece <;> simp [Piece.parens] at hpiece
  | _ => simp [print, Piece.parens, Piece.braces] at hpiece

theorem Pattern.print_isUnit {pattern : Pattern} (h : pattern.isPrintable = true) :
    IsUnit startsPattern pattern.print := by
  apply pattern.print_isClosed.restart
  intro piece hpiece
  cases pattern with
  | wildcard span =>
      cases hpiece
      rfl
  | «variable» name =>
      cases hpiece
      have hfree : name.isFree = true := h
      simpa [startsPattern, isOperatorWord, Lexeme.isFree, Token.patternStarts] using hfree
  | number literal =>
      cases hpiece
      rfl
  | text literal =>
      cases hpiece
      rfl
  | tuple elements span =>
      rw [print] at hpiece
      split at hpiece <;> simp [Piece.parens] at hpiece
  | _ => simp [print, Piece.parens, Piece.braces] at hpiece

theorem Expression.print_isUnit {expression : Expression} (h : expression.isPrintable = true) :
    IsUnit startsExpression expression.print := by
  apply expression.print_isClosed.restart
  intro piece hpiece
  cases expression with
  | placeholder span =>
      cases hpiece
      rfl
  | «variable» name =>
      cases hpiece
      have hfree : name.isFree = true := h
      simpa [startsExpression, isOperatorWord, Lexeme.isFree, Token.expressionStarts] using hfree
  | typeName name =>
      cases hpiece
      rfl
  | number literal =>
      cases hpiece
      rfl
  | text literal =>
      cases hpiece
      rfl
  | call function inputs span =>
      rw [print] at hpiece
      split at hpiece <;> simp [Piece.parens] at hpiece
  | tuple elements span =>
      rw [print] at hpiece
      split at hpiece <;> simp [Piece.parens] at hpiece
  | collection elements span =>
      rw [print] at hpiece
      split at hpiece <;> simp [Piece.parens] at hpiece
  | _ => simp [print, Piece.parens, Piece.braces] at hpiece

namespace Piece

theorem startsExpression_of_startsPattern {piece : Piece} (h : startsPattern piece = true) :
    startsExpression piece = true := by
  have hsubset : forall kind, kind ∈ Token.patternStarts -> kind ∈ Token.expressionStarts := by
    decide
  simp only [startsPattern, startsExpression, Bool.and_eq_true, List.contains_eq_mem,
    decide_eq_true_eq] at h ⊢
  exact ⟨hsubset _ h.1, h.2⟩

theorem IsUnit.expression {pieces : List Piece} (h : IsUnit startsPattern pieces) :
    IsUnit startsExpression pieces := by
  cases h with
  | atom hstarts hsound hplain =>
      exact atom (startsExpression_of_startsPattern hstarts) hsound hplain
  | group h hinner => exact group h hinner

/-!
## Looking for an arrow
-/

def token (piece : Piece) : Token := { kind := piece.1, value := piece.2, span := default }

theorem arrowFollows_tokens (depth : Nat) (first : Bool) (tokens : List Token) :
    Grammar.arrowFollows depth first tokens =
      Grammar.arrowFollows depth first ((tokens.map Token.piece).map token) := by
  induction tokens generalizing depth first with
  | nil => rfl
  | cons t rest ih =>
      simp only [List.map_cons, Grammar.arrowFollows]
      simp only [← ih]
      rfl

def arrowFollows (depth : Nat) (first : Bool) (pieces : List Piece) : Bool :=
  Grammar.arrowFollows depth first (pieces.map token)

theorem arrowFollows_inside (depth : Nat) (first : Bool) (pieces : List Piece) :
    arrowFollows (depth + 1) first pieces = arrowFollows (depth + 1) false pieces := by
  cases pieces with
  | nil => rfl
  | cons piece rest => simp [arrowFollows, Grammar.arrowFollows]

theorem arrowFollows_plain {piece : Piece} (hplain : Bracket.plain piece.1 = true)
    (hend : piece.1 ≠ .endOfInput) (depth : Nat) (first : Bool) (rest : List Piece) :
    arrowFollows (depth + 1) first (piece :: rest) = arrowFollows (depth + 1) false rest := by
  rcases piece with ⟨kind, value⟩
  cases kind with
  | mark found => cases found <;> first | rfl | cases hplain
  | endOfInput => exact absurd rfl hend
  | _ => rfl

theorem arrowFollows_opening {opening closing : Mark} (h : Partners opening closing)
    (depth : Nat) (first : Bool) (rest : List Piece) :
    arrowFollows depth first (mark opening :: rest) = arrowFollows (depth + 1) false rest := by
  cases h <;> rfl

theorem arrowFollows_closing {opening closing : Mark} (h : Partners opening closing)
    (depth : Nat) (first : Bool) (rest : List Piece) :
    arrowFollows (depth + 1) first (mark closing :: rest) = arrowFollows depth false rest := by
  cases h <;> rfl

theorem Nested.arrowFollows {pieces : List Piece} (h : Nested pieces) (depth : Nat)
    (first : Bool) (rest : List Piece) :
    arrowFollows (depth + 1) first (pieces ++ rest) = arrowFollows (depth + 1) false rest := by
  induction h generalizing depth first rest with
  | nil => exact arrowFollows_inside depth first rest
  | word hsound hplain _ ih =>
      rw [List.cons_append, arrowFollows_plain hplain hsound.noEnd, ih]
  | group h _ _ hinner hrest =>
      rw [List.append_assoc, Piece.between, List.cons_append, arrowFollows_opening h,
        List.append_assoc, hinner, List.singleton_append, arrowFollows_closing h, hrest]

theorem arrowFollows_group {opening closing : Mark} (h : Partners opening closing)
    {inner : List Piece} (hinner : Nested inner) (depth : Nat) (first : Bool)
    (rest : List Piece) :
    arrowFollows depth first (between opening closing inner ++ rest) =
      arrowFollows depth false rest := by
  rw [between, List.cons_append, arrowFollows_opening h, List.append_assoc,
    hinner.arrowFollows, List.singleton_append, arrowFollows_closing h]

theorem arrowFollows_other {piece : Piece}
    (h : ¬ piece.1 ∈ [.endOfInput, .mark .openParen, .mark .openCurly, .mark .arrow])
    (first : Bool) (rest : List Piece) :
    arrowFollows 0 first (piece :: rest) =
      if first || startsPattern piece then arrowFollows 0 false rest else false := by
  rcases piece with ⟨kind, value⟩
  cases kind with
  | mark found => cases found <;> first | rfl | simp at h
  | endOfInput => simp at h
  | _ => rfl

theorem arrowFollows_word {piece : Piece} (hstarts : startsExpression piece = true)
    (hplain : Bracket.plain piece.1 = true) (first : Bool) (rest : List Piece) :
    arrowFollows 0 first (piece :: rest) =
      if first || startsPattern piece then arrowFollows 0 false rest else false := by
  apply arrowFollows_other
  intro hkind
  simp only [List.mem_cons, List.not_mem_nil, or_false] at hkind
  rcases hkind with hkind | hkind | hkind | hkind
  · simp [startsExpression, hkind, Token.expressionStarts] at hstarts
  · simp [hkind, Bracket.plain, Kind.opened?] at hplain
  · simp [hkind, Bracket.plain, Kind.opened?] at hplain
  · simp [startsExpression, hkind, Token.expressionStarts] at hstarts

theorem IsUnit.refuses {pieces rest : List Piece} (h : IsUnit startsExpression pieces)
    (hrest : Piece.arrowFollows 0 false rest = false) (first : Bool) :
    Piece.arrowFollows 0 first (pieces ++ rest) = false := by
  cases h with
  | atom hstarts _ hplain =>
      rw [List.singleton_append, arrowFollows_word hstarts hplain, hrest, ite_self]
  | group h hinner => rw [arrowFollows_group h hinner, hrest]

theorem refuses_flatMap {τ : Type} {print : τ -> List Piece} {xs : List τ} {rest : List Piece}
    (h : forall x, x ∈ xs -> IsUnit startsExpression (print x))
    (hrest : Piece.arrowFollows 0 false rest = false) :
    Piece.arrowFollows 0 false (xs.flatMap print ++ rest) = false := by
  induction xs with
  | nil => exact hrest
  | cons x xs ih =>
      rw [List.flatMap_cons, List.append_assoc]
      exact (h x (by simp)).refuses (ih (fun y hy => h y (by simp [hy]))) false

theorem IsUnit.passes {pieces : List Piece} (h : IsUnit startsPattern pieces) (first : Bool)
    (rest : List Piece) :
    Piece.arrowFollows 0 first (pieces ++ rest) = Piece.arrowFollows 0 false rest := by
  cases h with
  | atom hstarts _ hplain =>
      rw [List.singleton_append,
        arrowFollows_word (startsExpression_of_startsPattern hstarts) hplain, hstarts,
        Bool.or_true, if_pos rfl]
  | group h hinner => exact arrowFollows_group h hinner 0 first rest

theorem arrowFollows_flatMap {τ : Type} {print : τ -> List Piece} {xs : List τ}
    {rest : List Piece} (h : forall x, x ∈ xs -> IsUnit startsPattern (print x)) (first : Bool) :
    Piece.arrowFollows 0 first (xs.flatMap print ++ .mark .arrow :: rest) = true := by
  induction xs generalizing first with
  | nil => rfl
  | cons x xs ih =>
      rw [List.flatMap_cons, List.append_assoc, (h x (by simp)).passes]
      exact ih (fun y hy => h y (by simp [hy])) false

end Piece

theorem Cursor.At.mayBeFunction {room : Nat} {pieces : List Piece} {c : Cursor}
    (h : c.At room pieces) :
    Grammar.mayBeFunction c =
      (Token.patternStarts.contains (Piece.headKind pieces) && arrowFollows 0 true pieces) := by
  have hfilter : c.ahead.filter (fun token => !token.isComment) = c.ahead := by
    rw [List.filter_eq_self]
    intro t ht
    rw [h.isComment_of_mem ht]
    rfl
  have hfinal : forall (depth : Nat) (first : Bool) (tokens : List Token),
      Grammar.arrowFollows depth first (tokens ++ [c.final]) =
        Grammar.arrowFollows depth first tokens := by
    intro depth first tokens
    induction tokens generalizing depth first with
    | nil => simp [Grammar.arrowFollows, h.final]
    | cons t rest ih => simp only [List.cons_append, Grammar.arrowFollows, ih]
  rw [Grammar.mayBeFunction, h.kind_eq, Cursor.tokensAhead, hfilter, hfinal,
    arrowFollows_tokens, h.ahead]
  rfl

/-!
## Lists of units
-/

namespace Piece

theorem startsExpression_of_startsType {piece : Piece} (h : startsType piece = true) :
    startsExpression piece = true := by
  have hsubset : forall kind, kind ∈ Token.typeStarts -> kind ∈ Token.expressionStarts := by
    decide
  simp only [startsType, startsExpression, Bool.and_eq_true, List.contains_eq_mem,
    decide_eq_true_eq] at h ⊢
  exact ⟨hsubset _ h.1, h.2⟩

theorem startsExpression_opening {opening closing : Mark} (h : Partners opening closing) :
    startsExpression (mark opening) = true := by
  cases h <;> rfl

theorem startsPattern_opening {opening closing : Mark} (h : Partners opening closing) :
    startsPattern (mark opening) = true := by
  cases h <;> rfl

theorem startsType_opening {opening closing : Mark} (h : Partners opening closing) :
    startsType (mark opening) = true := by
  cases h <;> rfl

def Pauses (rest : List Piece) : Prop :=
  forall piece, rest.head? = some piece -> startsExpression piece = false

def Halts (rest : List Piece) : Prop := Pauses rest ∧ headKind rest ≠ .mark .arrow

theorem pauses_mark {found : Mark} {rest : List Piece}
    (h : startsExpression (mark found) = false) : Pauses (mark found :: rest) := by
  intro piece hpiece
  cases hpiece
  exact h

theorem pauses_lineBreak {rest : List Piece} : Pauses (lineBreak :: rest) := by
  intro piece hpiece
  cases hpiece
  rfl

theorem Halts.refuses {rest : List Piece} (h : Halts rest) : arrowFollows 0 false rest = false := by
  cases rest with
  | nil => rfl
  | cons piece rest =>
      have hstarts : startsExpression piece = false := h.1 piece rfl
      by_cases hend : piece.1 = .endOfInput
      · simp [arrowFollows, Grammar.arrowFollows, token, hend]
      · have hpattern : startsPattern piece = false := by
          cases hpattern : startsPattern piece with
          | false => rfl
          | true => exact absurd (startsExpression_of_startsPattern hpattern) (by simp [hstarts])
        rw [arrowFollows_other ?_, hpattern, Bool.or_self, if_neg (by simp)]
        intro hkind
        simp only [List.mem_cons, List.not_mem_nil, or_false] at hkind
        rcases hkind with hkind | hkind | hkind | hkind
        · exact hend hkind
        · simp [startsExpression, hkind, Token.expressionStarts, isOperatorWord] at hstarts
        · simp [startsExpression, hkind, Token.expressionStarts, isOperatorWord] at hstarts
        · exact h.2 hkind

end Piece

theorem Cursor.At.pauses {room : Nat} {rest : List Piece} {c : Cursor} (h : c.At room rest)
    (hrest : Pauses rest) : startsExpression c.current.piece = false := by
  cases rest with
  | nil =>
      have hkind : c.current.piece.1 = .endOfInput := h.kind_eq
      simp [startsExpression, hkind, Token.expressionStarts]
  | cons piece rest =>
      rw [h.piece_current]
      exact hrest piece rfl

namespace Parser.Accepts

theorem units {α τ γ : Type} {room : Nat} {starts : Piece -> Bool} {item : Parser α}
    {print : τ -> List Piece} {target : τ -> γ} {view : α -> γ} {xs : List τ}
    {after : List Piece}
    (hstarts : forall piece, starts piece = true -> startsExpression piece = true)
    (hopening : forall opening closing, Partners opening closing -> starts (mark opening) = true)
    (hunit : forall x, x ∈ xs -> IsUnit starts (print x))
    (hitem : forall x, x ∈ xs -> forall rest, Accepts room item (print x ++ rest) rest
      (fun value => view value = target x))
    (hafter : Pauses after) :
    Accepts room (Parser.repeatWhile (fun cursor => starts cursor.current.piece) item)
      (xs.flatMap print ++ after) after (fun values => values.map view = xs.map target) := by
  refine repeatWhile (fun _ => True) (fun x hx rest _ => hitem x hx rest) ?_ ⟨trivial, ?_⟩ ?_
  · intro x hx rest
    constructor
    · trivial
    · intro c hc
      rcases (hunit x hx).begins hopening with ⟨piece, more, hprint, hpiece⟩
      rw [hprint] at hc
      rw [hc.piece_current, hpiece]
  · intro c hc
    cases hpiece : starts c.current.piece with
    | false => rfl
    | true => exact absurd (hstarts _ hpiece) (by simp [hc.pauses hafter])
  · intro x hx
    rcases (hunit x hx).begins hopening with ⟨piece, more, hprint, _⟩
    simp [hprint]

theorem noUnits {α : Type} {room : Nat} {starts : Piece -> Bool} {item : Parser α}
    {before : List Piece}
    (hstarts : forall piece, starts piece = true -> startsExpression piece = true)
    (hbefore : Pauses before) :
    Accepts room (Parser.repeatWhile (fun cursor => starts cursor.current.piece) item)
      before before (fun values => values = []) := by
  apply repeatNone
  intro c hc
  cases hpiece : starts c.current.piece with
  | false => rfl
  | true => exact absurd (hstarts _ hpiece) (by simp [hc.pauses hbefore])

end Parser.Accepts

end Linewise
