import Linewise.Grammar.Type
import Linewise.Proofs.Combinator

/-!
# The account of types

What the rules of the type grammar read is the script of the type they build.
-/

namespace Linewise

/-- The four rules of a level keep an account. -/
structure Level.Keeps (A : Account) (level : Level) : Prop where
  statement : forall comments, A.Reads 1 (level.statement comments) Statement.contents
  expression : forall least, A.Reads 1 (level.expression least) Expression.script
  pattern : A.Reads 1 level.pattern Pattern.script
  type : A.Reads 1 level.type TypeExpr.script

namespace Grammar

open Linewise.Parser
open Linewise.Account

variable {A : Account} {level : Level}

/-!
## Subtypes
-/

theorem placeholderType_reads : A.Reads 1 placeholderType TypeExpr.script :=
  Tells.bind (Reads.expectMark .underscore) (fun _ => Tells.pure rfl)

theorem parameterType_reads : A.Reads 1 parameterType TypeExpr.script :=
  Tells.bind Reads.typeParameterName (fun _ => Tells.pure rfl)

theorem namedType_reads : A.Reads 1 namedType TypeExpr.script :=
  Tells.bind Reads.typeName (fun _ => Tells.pure rfl)

theorem blockType_reads (hlevel : level.Keeps A) :
    A.Reads 1 (blockType level) TypeExpr.script := by
  apply Tells.bind (Reads.expectMark .openCurly)
  intro opening
  apply Tells.step Reads.skipLineBreaks
  intro _
  apply Tells.step hlevel.type
  intro output
  apply Tells.step Reads.skipLineBreaks
  intro _
  apply Tells.step (Reads.expectMark .closeCurly)
  intro _
  apply Tells.look
  intro span
  exact Tells.pure (by simp [TypeExpr.script])

theorem semicolon_isSilent (kind : Kind) (h : kind ∈ [Kind.mark .semicolon]) :
    kind.isSilent = true := by
  rw [List.mem_singleton.mp h]
  rfl

theorem parenthesizedType_reads (hlevel : level.Keeps A) :
    A.Reads 1 (parenthesizedType level) TypeExpr.script := by
  apply Tells.look
  intro start
  apply Tells.bind (Reads.enclosed hlevel.type
    (TypeExpr.script_composed Symbol.balanced_composed) semicolon_isSilent)
  intro form
  apply Tells.look
  intro span
  cases form with
  | unit => exact Tells.pure rfl
  | group type => exact Tells.pure rfl
  | sequence separator elements =>
      exact Tells.pure (by simp [enclosedScript, TypeExpr.script, TypeExpr.scripts_eq_flatMap])

theorem subtype_reads (hlevel : level.Keeps A) : A.Reads 1 (subtype level) TypeExpr.script := by
  apply Tells.look
  intro kind
  split
  · exact placeholderType_reads.readsIf
  · exact parameterType_reads.readsIf
  · exact namedType_reads.readsIf
  · exact (blockType_reads hlevel).readsIf
  · exact (parenthesizedType_reads hlevel).readsIf
  · exact Tells.unexpected _

theorem not_startsType_of_end {c : Cursor} (h : c.kind = .endOfInput) :
    c.current.startsType = false := by
  have hkind : c.current.kind = .endOfInput := h
  simp [Token.startsType, Token.typeStarts, hkind]

theorem subtypes_reads (hlevel : level.Keeps A) :
    A.Reads 0 (subtypes level) TypeExpr.scripts := by
  refine Tells.last (Reads.repeatWhile (subtype_reads hlevel).readsIf ?_) ?_
  · intro c hend
    exact not_startsType_of_end hend
  · intro types
    exact (TypeExpr.scripts_eq_flatMap types).symm

/-!
## Type elements
-/

theorem subtype_eq_named {c d : Cursor} {type : TypeExpr} (hkind : c.kind = .capitalName)
    (h : subtype level c = .ok type d) : exists name, type = .named name [] name.span := by
  rcases bind_eq_ok.mp h with ⟨kind, e, hlook, hname⟩
  cases hlook
  have hcurrent : c.kind = .capitalName := hkind
  simp only [hcurrent] at hname
  rcases bind_eq_ok.mp hname with ⟨name, _, _, hpure⟩
  cases hpure
  exact ⟨name, rfl⟩

theorem functionOrNamedType_reads (hlevel : level.Keeps A) :
    A.Reads 1 (functionOrNamedType level) TypeExpr.script := by
  apply Tells.look
  intro start
  apply Tells.look
  intro bare
  refine Tells.bindThen
    (fun first _ => bare = true -> exists name, first = .named name [] name.span)
    (subtype_reads hlevel).readsIf ?_ (fun first => Tells.given (fun hbare => ?_))
  · intro c first d read noted hpre hfirst _ _ hbare
    have hkind : c.kind = .capitalName := by
      have hat := hpre.2
      rw [hbare] at hat
      simpa [Cursor.isAt] using hat
    exact subtype_eq_named hkind hfirst
  apply Tells.step (subtypes_reads hlevel)
  intro rest
  apply Tells.look
  intro arrow
  split
  · rename_i harrow
    refine Tells.stepIf (ReadsIf.advanceMark .arrow ?_) (fun _ => ?_)
    · rintro c ⟨_, hc⟩
      simpa [Cursor.isAt, harrow] using hc
    apply Tells.step Reads.skipLineBreaks
    intro _
    apply Tells.step hlevel.type
    intro output
    apply Tells.look
    intro span
    exact Tells.pure (by simp [TypeExpr.script, TypeExpr.scripts])
  · split
    · rename_i hrest
      rw [List.isEmpty_iff.mp hrest]
      exact Tells.pure (by simp [TypeExpr.scripts])
    · split
      · rename_i name hname
        rcases hbare rfl with ⟨found, rfl⟩
        cases hname
        apply Tells.look
        intro span
        exact Tells.pure (by simp [TypeExpr.script, TypeExpr.scripts])
      · exact Tells.unexpected _

/-!
## Constraints and signatures
-/

theorem constraintBody_reads (hlevel : level.Keeps A) :
    A.Reads 1 (constraintBody level) Constraint.script := by
  apply Tells.look
  intro start
  apply Tells.look
  intro kind
  split
  · apply Tells.bindIf (ReadsIf.advanceReserved .inferWord (fun c hc => hc.2))
    intro _
    apply Tells.step Reads.typeParameterName
    intro parameter
    apply Tells.look
    intro span
    exact Tells.pure rfl
  · apply Tells.bind Reads.typeParameterName
    intro parameter
    apply Tells.step (Reads.expectMark .colon)
    intro _
    apply Tells.step Reads.skipLineBreaks
    intro _
    apply Tells.step hlevel.type
    intro value
    apply Tells.look
    intro span
    exact Tells.pure (by simp [Constraint.script])
  · apply Tells.bind Reads.typeName
    intro trait
    apply Tells.step (subtype_reads hlevel)
    intro first
    apply Tells.step (subtypes_reads hlevel)
    intro rest
    apply Tells.look
    intro span
    exact Tells.pure (by simp [Constraint.script, TypeExpr.scripts])
  · exact Tells.unexpected _

theorem constraint_reads (hlevel : level.Keeps A) :
    A.Reads 1 (constraint level) Constraint.script := by
  apply Tells.bind (Reads.expectMark .openParen)
  intro _
  apply Tells.step (constraintBody_reads hlevel)
  intro found
  apply Tells.step (Reads.expectMark .closeParen)
  intro _
  apply Tells.ungroup [] (found.script_composed Symbol.balanced_composed) rfl
  exact Tells.pure rfl

theorem not_isAt_of_end {c : Cursor} {kind : Kind} (hkind : kind ≠ .endOfInput)
    (h : c.kind = .endOfInput) : c.isAt kind = false := by
  simpa [Cursor.isAt, h] using hkind.symm

theorem whereClause_reads (hlevel : level.Keeps A) :
    A.Reads 0 (whereClause level) (optionScript WhereClause.script) := by
  apply Tells.look
  intro present
  split
  · rename_i hpresent
    refine Tells.stepIf (ReadsIf.advanceReserved .whereWord ?_) (fun opening => ?_)
    · rintro c ⟨_, hc⟩
      simpa [Cursor.isAt, hpresent] using hc
    apply Tells.step (constraint_reads hlevel)
    intro first
    refine Tells.step (Reads.repeatWhile (constraint_reads hlevel).readsIf ?_) (fun rest => ?_)
    · intro c hend
      exact not_isAt_of_end (by simp) hend
    apply Tells.look
    intro span
    exact Tells.pure (by simp [optionScript, WhereClause.script])
  · exact Tells.pure rfl

theorem signature_reads (hlevel : level.Keeps A) :
    A.Reads 1 (signature level) Signature.script := by
  apply Tells.look
  intro start
  apply Tells.bind hlevel.type
  intro type
  apply Tells.step (whereClause_reads hlevel)
  intro clause
  apply Tells.look
  intro span
  exact Tells.pure rfl

theorem typeFunction_reads : A.Reads 1 typeFunction TypeFunction.script := by
  apply Tells.look
  intro start
  apply Tells.bind Reads.typeParameterName
  intro first
  refine Tells.step (Reads.repeatWhile Reads.typeParameterName.readsIf ?_) (fun rest => ?_)
  · intro c hend
    exact not_isAt_of_end (by simp) hend
  apply Tells.step (Reads.expectMark .fatArrow)
  intro _
  apply Tells.look
  intro span
  apply Tells.step Reads.skipLineBreaks
  intro _
  exact Tells.pure (by simp [TypeFunction.script, List.map_eq_flatMap])

end Grammar
end Linewise
