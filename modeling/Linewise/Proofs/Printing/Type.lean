import Linewise.Grammar.Nesting
import Linewise.Proofs.Printing.Unit

/-!
# Reading printed types

A printed type is read back as a subtype, whatever follows it, and as a type
element if neither a type nor an arrow follows.
-/

namespace Linewise

open Linewise.Parser
open Linewise.Piece

namespace TypeExpr

def Reads (type : TypeExpr) : Prop :=
  forall room rest, type.levels <= room ->
    Accepts room (Grammar.subtype (Level.ofRoom room)) (type.print ++ rest) rest
      (fun read => read.erase = type.erase)

theorem headKind_print {type : TypeExpr} (h : type.isPrintable = true) (rest : List Piece) :
    headKind (type.print ++ rest) ∈ Token.typeStarts :=
  IsUnit.headKind_mem (print_isUnit h) (fun _ _ => startsType_opening) rest

variable {room : Nat} {rest : List Piece}

theorem subtypes_accepts {types : List TypeExpr} {room : Nat} {after : List Piece}
    (hprintable : forall type, type ∈ types -> type.isPrintable = true)
    (hreads : forall type, type ∈ types -> type.Reads)
    (hlevels : forall type, type ∈ types -> type.levels <= room) (hafter : Pauses after) :
    Accepts room (Grammar.subtypes (Level.ofRoom room)) (prints types ++ after) after
      (fun read => eraseAll read = eraseAll types) := by
  rw [prints_eq_flatMap]
  simp only [eraseAll_eq_map]
  exact Accepts.units (fun _ => startsExpression_of_startsType) (fun _ _ => startsType_opening)
    (fun type hmem => print_isUnit (hprintable type hmem))
    (fun type hmem rest => hreads type hmem room rest (hlevels type hmem)) hafter

theorem Reads.element {type : TypeExpr} (hreads : type.Reads) (hlevels : type.levels <= room)
    (hrest : Halts rest) :
    Accepts (room + 1) (Level.ofRoom (room + 1)).type (type.print ++ rest) rest
      (fun read => read.erase = type.erase) := by
  apply Accepts.nested
  apply Accepts.look
  intro start
  apply Accepts.look
  intro bare
  apply Accepts.bind (hreads room rest hlevels)
  intro first hfirst
  apply Accepts.bind (Accepts.noUnits (fun _ => startsExpression_of_startsType) hrest.1)
  intro later hlater
  apply Accepts.isAt
  rw [if_neg (by simpa using hrest.2), if_pos (by simp [hlater])]
  exact Accepts.pure hfirst

theorem layout_of_typeStarts : forall kind, kind ∈ Token.typeStarts ->
    ¬ kind ∈ [Kind.lineBreak, .mark .closeParen] ∧
      [Kind.mark .semicolon].contains kind = false := by
  decide

theorem headKind_ne_lineBreak {type : TypeExpr} (h : type.isPrintable = true)
    (rest : List Piece) : headKind (type.print ++ rest) ≠ .lineBreak := by
  have hlayout := (layout_of_typeStarts _ (headKind_print h rest)).1
  simp only [List.mem_cons, List.not_mem_nil, or_false, not_or] at hlayout
  exact hlayout.1

/-!
## The forms of types
-/

theorem group_accepts {inner : List Piece} {good : TypeExpr -> Prop}
    (hhead : headKind (inner ++ mark .closeParen :: rest) ∈ Token.typeStarts)
    (h : Accepts room (Grammar.functionOrNamedType (Level.ofRoom room))
      (inner ++ mark .closeParen :: rest) (mark .closeParen :: rest) good) :
    Accepts (room + 1) (Grammar.subtype (Level.ofRoom (room + 1))) (parens inner ++ rest) rest
      good := by
  apply Accepts.kind
  apply Accepts.look
  intro start
  have hlayout := layout_of_typeStarts _ hhead
  apply Accepts.bind (Accepts.enclosedGroup hlayout.1 hlayout.2 rfl h.nested)
  intro form hform
  rcases hform with ⟨type, hform, hgood⟩
  apply Accepts.look
  intro span
  rw [hform]
  exact Accepts.pure hgood

theorem named_accepts {name : Lexeme} {parameters : List TypeExpr} {span : Span}
    (hne : parameters ≠ []) (hprintable : forall type, type ∈ parameters -> type.isPrintable = true)
    (hreads : forall type, type ∈ parameters -> type.Reads)
    (hlevels : forall type, type ∈ parameters -> type.levels <= room) :
    Accepts (room + 1) (Grammar.subtype (Level.ofRoom (room + 1)))
      (parens ((.capitalName, name.value) :: prints parameters) ++ rest) rest
      (fun read => read.erase = (named name parameters span).erase) := by
  have hname : forall behind, Accepts room (Grammar.subtype (Level.ofRoom room))
      ((.capitalName, name.value) :: behind) behind
      (fun type => exists read span, type = named read [] span ∧ read.erase = name.erase) :=
    fun behind => Accepts.kind (Accepts.bind (Accepts.leaf _ name)
      (fun read hread => Accepts.pure ⟨read, _, rfl, hread⟩))
  apply group_accepts (by simp [Token.typeStarts])
  apply Accepts.look
  intro start
  apply Accepts.isAt
  apply Accepts.bind (hname _)
  intro first hfirst
  rcases hfirst with ⟨read, nameSpan, hfirst, hread⟩
  apply Accepts.bind (subtypes_accepts hprintable hreads hlevels (pauses_mark rfl))
  intro later hlater
  have hlaterNe : later.isEmpty = false := by
    rw [eraseAll_eq_map, eraseAll_eq_map] at hlater
    cases later with
    | nil => exact absurd (List.map_eq_nil_iff.mp hlater.symm) hne
    | cons _ _ => rfl
  apply Accepts.isAt
  rw [if_neg (by simp [mark]), if_neg (by simp [hlaterNe]), hfirst]
  apply Accepts.look
  intro span
  exact Accepts.pure (by simp [erase, hread, hlater])

theorem function_accepts {inputs : List TypeExpr} {output : TypeExpr} {span : Span}
    (hne : inputs ≠ []) (hprintable : forall type, type ∈ inputs -> type.isPrintable = true)
    (hreads : forall type, type ∈ inputs -> type.Reads)
    (hlevels : forall type, type ∈ inputs -> type.levels <= room + 1)
    (houtput : output.isPrintable = true) (houtputReads : output.Reads)
    (houtputLevels : output.levels <= room) :
    Accepts (room + 2) (Grammar.subtype (Level.ofRoom (room + 2)))
      (parens (prints inputs ++ mark .arrow :: output.print) ++ rest) rest
      (fun read => read.erase = (function inputs output span).erase) := by
  cases inputs with
  | nil => exact absurd rfl hne
  | cons first more =>
      refine group_accepts ?_ ?_
      · rw [prints, List.append_assoc, List.append_assoc]
        exact headKind_print (hprintable first (by simp)) _
      · apply Accepts.look
        intro start
        apply Accepts.look
        intro bare
        rw [prints, List.append_assoc, List.append_assoc]
        apply Accepts.bind (hreads first (by simp) _ _ (hlevels first (by simp)))
        intro read hread
        refine Accepts.bind (subtypes_accepts (fun type hmem => hprintable type (by simp [hmem]))
          (fun type hmem => hreads type (by simp [hmem]))
          (fun type hmem => hlevels type (by simp [hmem])) (pauses_mark rfl))
          (fun later hlater => ?_)
        refine Accepts.isAt ?_
        rw [List.cons_append, if_pos (by simp [mark])]
        apply Accepts.bind Accepts.advance
        intro _ _
        apply Accepts.bind (Accepts.noLineBreaks (headKind_ne_lineBreak houtput _))
        intro _ _
        apply Accepts.bind (houtputReads.element houtputLevels
          ⟨pauses_mark rfl, by simp [mark]⟩)
        intro result hresult
        apply Accepts.look
        intro span
        exact Accepts.pure (by simp [erase, eraseAll, hread, hlater, hresult])

theorem block_accepts {output : TypeExpr} {span : Span} (h : output.isPrintable = true)
    (hreads : output.Reads) (hlevels : output.levels <= room) :
    Accepts (room + 1) (Grammar.subtype (Level.ofRoom (room + 1)))
      ((block output span).print ++ rest) rest
      (fun read => read.erase = (block output span).erase) := by
  have hprint : (block output span).print ++ rest =
      mark .openCurly :: (output.print ++ lineBreak :: mark .closeCurly :: rest) := by
    simp [print, braces]
  rw [hprint]
  apply Accepts.kind
  apply Accepts.bind (Accepts.expectMark .openCurly)
  intro _ _
  apply Accepts.bind (Accepts.noLineBreaks (headKind_ne_lineBreak h _))
  intro _ _
  apply Accepts.bind (hreads.element hlevels ⟨pauses_lineBreak, by simp [lineBreak]⟩)
  intro read hread
  apply Accepts.bind (Accepts.lineBreak (by simp [mark]))
  intro _ _
  apply Accepts.bind (Accepts.expectMark .closeCurly)
  intro _ _
  apply Accepts.look
  intro span
  exact Accepts.pure (by simp [erase, hread])

theorem tuple_accepts {elements : List TypeExpr} {span : Span} (hne : elements ≠ [])
    (hprintable : forall type, type ∈ elements -> type.isPrintable = true)
    (hreads : forall type, type ∈ elements -> type.Reads)
    (hlevels : forall type, type ∈ elements -> type.levels <= room) :
    Accepts (room + 1) (Grammar.subtype (Level.ofRoom (room + 1)))
      (parens (printsBefore (mark .semicolon) elements) ++ rest) rest
      (fun read => read.erase = (tuple elements span).erase) := by
  cases elements with
  | nil => exact absurd rfl hne
  | cons first more =>
      rw [printsBefore_eq_flatMap]
      apply Accepts.kind
      apply Accepts.look
      intro start
      apply Accepts.bind (Accepts.enclosedSequence rfl
        (fun type hmem rest => (hreads type hmem).element (hlevels type hmem)
          ⟨pauses_mark rfl, by simp [mark]⟩)
        (fun type hmem rest => layout_of_typeStarts _ (headKind_print (hprintable type hmem) rest)))
      intro form hform
      rcases hform with ⟨values, hform, hvalues⟩
      apply Accepts.look
      intro span
      rw [hform]
      exact Accepts.pure (by simp only [erase, eraseAll_eq_map, hvalues])

theorem reads (type : TypeExpr) : type.isPrintable = true -> type.Reads := by
  induction type using TypeExpr.treeInduction with
  | placeholder span =>
      intro _ room rest _
      exact Accepts.kind (Accepts.bind (Accepts.expectMark .underscore)
        (fun _ _ => Accepts.pure rfl))
  | parameter name =>
      intro _ room rest _
      refine Accepts.kind (Accepts.bind (Accepts.leaf _ name) (fun read hread => ?_))
      exact Accepts.pure (by simp [erase, hread])
  | named name parameters span ih =>
      intro hprintable room rest hlevels
      rw [isPrintable, arePrintable_iff] at hprintable
      rw [print]
      rw [levels] at hlevels
      split
      · rename_i hempty
        have hnone : parameters = [] := List.isEmpty_iff.mp hempty
        refine Accepts.kind (Accepts.bind (Accepts.leaf _ name) (fun read hread => ?_))
        exact Accepts.pure (by simp [erase, hread, hnone])
      · rename_i hne
        rw [if_neg hne] at hlevels
        cases room with
        | zero => cases hlevels
        | succ room =>
            exact named_accepts (by simpa using hne) hprintable
              (fun type hmem => ih type hmem (hprintable type hmem))
              (levelsOf_le_iff.mp (Nat.le_of_succ_le_succ hlevels))
  | function inputs output span hinputs houtput =>
      intro hprintable room rest hlevels
      simp only [isPrintable, Bool.and_eq_true, arePrintable_iff] at hprintable
      rcases hprintable with ⟨⟨hne, hprintable⟩, hprintableOutput⟩
      rw [levels] at hlevels
      rcases Nat.exists_eq_add_of_le' (show 2 <= room by omega) with ⟨room, rfl⟩
      rw [print]
      exact function_accepts (by simpa using hne) hprintable
        (fun type hmem => hinputs type hmem (hprintable type hmem))
        (levelsOf_le_iff.mp (by omega)) hprintableOutput (houtput hprintableOutput) (by omega)
  | block output span ih =>
      intro hprintable room rest hlevels
      cases room with
      | zero => cases hlevels
      | succ room =>
          exact block_accepts hprintable (ih hprintable) (Nat.le_of_succ_le_succ hlevels)
  | unit span =>
      intro _ room rest _
      refine Accepts.kind (Accepts.look (fun start => ?_))
      apply Accepts.bind Accepts.enclosedUnit
      intro form hform
      apply Accepts.look
      intro span
      rw [hform]
      exact Accepts.pure rfl
  | tuple elements span ih =>
      intro hprintable room rest hlevels
      rw [isPrintable, arePrintable_iff] at hprintable
      rw [print]
      rw [levels] at hlevels
      split
      · rename_i hempty
        refine Accepts.kind (Accepts.look (fun start => ?_))
        apply Accepts.bind (Accepts.enclosedNone rfl (by decide))
        intro form hform
        apply Accepts.look
        intro span
        rw [hform, List.isEmpty_iff.mp hempty]
        exact Accepts.pure rfl
      · rename_i hne
        rw [if_neg hne] at hlevels
        cases room with
        | zero => cases hlevels
        | succ room =>
            exact tuple_accepts (by simpa using hne) hprintable
              (fun type hmem => ih type hmem (hprintable type hmem))
              (levelsOf_le_iff.mp (Nat.le_of_succ_le_succ hlevels))

end TypeExpr

end Linewise
