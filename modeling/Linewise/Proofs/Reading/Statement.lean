import Linewise.Grammar.Nesting
import Linewise.Proofs.Reading.Expression

/-!
# The account of statements

What the rules for statements read is the script of the statement they build.
With that, an account that is kept in braces is kept at every level of nesting.
-/

namespace Linewise
namespace Grammar

open Linewise.Parser
open Linewise.Account

variable {A : Account} {level : Level}

/-!
## Attributes
-/

theorem bracketedAttribute_reads : A.Reads 1 bracketedAttribute Attribute.script := by
  apply Tells.bind (Reads.expectMark .openBracket)
  intro opening
  apply Tells.step Reads.attributeName
  intro name
  apply Tells.look
  intro valued
  split
  · rename_i hvalued
    refine Tells.stepIf (ReadsIf.advanceMark .colon ?_) (fun _ => ?_)
    · rintro c ⟨_, hc⟩
      simpa [Cursor.isAt, hvalued] using hc
    apply Tells.step Reads.skipLineBreaks
    intro _
    apply Tells.look
    intro kind
    split
    · apply Tells.step Reads.text
      intro value
      apply Tells.step (Reads.expectMark .closeBracket)
      intro _
      apply Tells.look
      intro span
      exact Tells.pure rfl
    · apply Tells.step Reads.number
      intro value
      apply Tells.step (Reads.expectMark .closeBracket)
      intro _
      apply Tells.look
      intro span
      exact Tells.pure rfl
    · exact Tells.unexpected _
  · apply Tells.step (Reads.expectMark .closeBracket)
    intro _
    apply Tells.look
    intro span
    exact Tells.pure rfl

theorem attributes_reads :
    A.Reads 0 attributes (fun found => found.flatMap Attribute.script) := by
  refine Reads.repeatWhile (Tells.bind bracketedAttribute_reads (fun found => ?_)) ?_
  · exact Tells.step Reads.skipLineBreaks (fun _ => Tells.pure (by simp))
  · intro c hend
    exact not_isAt_of_end (by simp) hend

/-!
## Definitions
-/

theorem fieldDefinition_reads (hlevel : level.Keeps A) :
    A.Reads 1 (fieldDefinition level) Representation.fieldScript := by
  apply Tells.look
  intro start
  apply Tells.bind Reads.variableName
  intro name
  apply Tells.step (Reads.expectMark .doubleColon)
  intro _
  apply Tells.step Reads.skipLineBreaks
  intro _
  apply Tells.step (signature_reads hlevel)
  intro signature
  apply Tells.look
  intro span
  exact Tells.pure (by simp [Representation.fieldScript])

theorem variantDefinition_reads (hlevel : level.Keeps A) :
    A.Reads 1 (variantDefinition level) Representation.variantScript := by
  apply Tells.look
  intro start
  apply Tells.bind Reads.variantName
  intro name
  apply Tells.step (subtypes_reads hlevel)
  intro elements
  apply Tells.look
  intro span
  exact Tells.pure rfl

theorem representation_reads (hlevel : level.Keeps A) :
    A.Reads 1 (representation level) Representation.script := by
  apply Tells.bind (Reads.expectMark .openCurly)
  intro opening
  apply Tells.step Reads.skipLineBreaks
  intro _
  apply Tells.look
  intro kind
  split
  · apply Tells.step (Reads.lines (fieldDefinition_reads hlevel))
    intro fields
    apply Tells.step (Reads.expectMark .closeCurly)
    intro _
    apply Tells.look
    intro span
    exact Tells.pure (by simp [Representation.script])
  · apply Tells.step (Reads.lines (variantDefinition_reads hlevel))
    intro variants
    apply Tells.step (Reads.expectMark .closeCurly)
    intro _
    apply Tells.look
    intro span
    exact Tells.pure (by simp [Representation.script])
  · exact Tells.unexpected _

def headScript (head : DefinitionHead) : List Symbol :=
  .leaf .capitalName head.name :: .mark .colon ::
    optionScript TypeFunction.script head.parameters

theorem expectAs_eq_ok {kind : Kind} {description : String} {c d : Cursor} {token : Token}
    (h : expectAs kind description c = .ok token d) : c.kind = kind ∧ d = c.advance := by
  unfold expectAs expectOr at h
  split at h
  · rename_i hat
    cases h
    exact ⟨by simpa [Cursor.isAt] using hat, rfl⟩
  · cases h

theorem leaf_eq_ok {kind : Kind} {description : String} {c d : Cursor} {lexeme : Lexeme}
    (h : leaf kind description c = .ok lexeme d) : c.kind = kind ∧ d = c.advance := by
  rcases bind_eq_ok.mp h with ⟨token, e, htoken, hpure⟩
  cases hpure
  exact expectAs_eq_ok htoken

theorem definitionHead_reads :
    A.ReadsIf 1
      (fun c => c.final.kind = .endOfInput ∧ atPair .capitalName (.mark .colon) c = true)
      definitionHead headScript := by
  refine Tells.bindThen (fun _ d => d.kind = .mark .colon) Reads.typeName.readsIf ?_
    (fun name => ?_)
  · -- the colon behind the name was seen before the name was read
    intro c name d read noted hpre hname _ _
    rcases leaf_eq_ok hname with ⟨hkind, hadvance⟩
    have hpair := hpre.2
    simp only [atPair, Bool.and_eq_true, beq_iff_eq] at hpair
    rw [hadvance, Cursor.kind, Cursor.current_advance hpre.1 (by simp [hkind])]
    exact hpair.2
  apply Tells.stepIf (ReadsIf.advanceMark .colon (fun c hc => hc))
  intro _
  apply Tells.step Reads.skipLineBreaks
  intro _
  apply Tells.step (ReadsIf.speculate typeFunction_reads)
  intro parameters
  apply Tells.look
  intro isType
  apply Tells.look
  intro isTrait
  split
  · exact Tells.pure (by simp [headScript])
  · exact Tells.unexpected _

theorem typeDefinition_tells (hlevel : level.Keeps A) {pre : Cursor -> Prop} (start : Span)
    (header : Header) (head : DefinitionHead) :
    A.Tells 1 pre (header.script ++ headScript head) (typeDefinition level start header head)
      Statement.contents := by
  have hbody : A.Reads 1 (some <$> representation level)
      (optionScript Representation.script) := (representation_reads hlevel).map (fun _ => rfl)
  apply Tells.bind (Reads.expectReserved .typeWord)
  intro _
  apply Tells.look
  intro braced
  split
  · apply Tells.step hbody
    intro body
    apply Tells.look
    intro span
    exact Tells.pure (by simp [Statement.contents, headScript])
  · apply Tells.step (Reads.omitted Representation.script)
    intro body
    apply Tells.look
    intro span
    exact Tells.pure (by simp [Statement.contents, headScript])

theorem traitDefinition_tells (hlevel : level.Keeps A) {pre : Cursor -> Prop} (start : Span)
    (header : Header) (head : DefinitionHead) :
    A.Tells 1 pre (header.script ++ headScript head) (traitDefinition level start header head)
      Statement.contents := by
  have htype : A.Reads 1 (some <$> subtype level) (optionScript TypeExpr.script) :=
    (subtype_reads hlevel).map (fun _ => rfl)
  apply Tells.bind (Reads.expectReserved .traitWord)
  intro _
  apply Tells.look
  intro typed
  split
  · apply Tells.step htype
    intro type
    apply Tells.step (whereClause_reads hlevel)
    intro clause
    apply Tells.look
    intro span
    exact Tells.pure (by simp [Statement.contents, headScript])
  · apply Tells.step (Reads.omitted TypeExpr.script)
    intro type
    apply Tells.step (whereClause_reads hlevel)
    intro clause
    apply Tells.look
    intro span
    exact Tells.pure (by simp [Statement.contents, headScript])

theorem constantDefinition_tells (hlevel : level.Keeps A) {pre : Cursor -> Prop}
    (start : Span) (header : Header) :
    A.Tells 1 pre header.script (constantDefinition level start header)
      Statement.contents := by
  apply Tells.bind Reads.variableName
  intro name
  apply Tells.step (Reads.expectMark .doubleColon)
  intro _
  apply Tells.step Reads.skipLineBreaks
  intro _
  apply Tells.step (signature_reads hlevel)
  intro signature
  apply Tells.look
  intro span
  exact Tells.pure (by simp [Statement.contents])

theorem instanceValue_reads (hlevel : level.Keeps A) :
    A.Reads 0 (instanceValue level) Expression.valueScript := by
  apply Tells.look
  intro valued
  split
  · rename_i hvalued
    refine Tells.stepIf (ReadsIf.advanceMark .colon ?_) (fun _ => ?_)
    · rintro c ⟨_, hc⟩
      simpa [Cursor.isAt, hvalued] using hc
    apply Tells.step Reads.skipLineBreaks
    intro _
    apply Tells.step (expression_reads hlevel)
    intro value
    exact Tells.pure rfl
  · exact Tells.pure rfl

theorem instanceDefinition_tells (hlevel : level.Keeps A) {pre : Cursor -> Prop}
    (start : Span) (header : Header) :
    A.Tells 1 pre header.script (instanceDefinition level start header)
      Statement.contents := by
  apply Tells.bind (Reads.expectReserved .instanceWord)
  intro _
  apply Tells.step (Reads.expectMark .openParen)
  intro _
  apply Tells.step Reads.typeName
  intro trait
  apply Tells.step (subtype_reads hlevel)
  intro first
  apply Tells.step (subtypes_reads hlevel)
  intro rest
  apply Tells.step (Reads.expectMark .closeParen)
  intro _
  have hinner : Symbol.Balanced (.leaf .capitalName trait :: TypeExpr.scripts (first :: rest)) :=
    Symbol.balanced_composed.cons (Symbol.balanced_composed.leaf trait rfl)
      (TypeExpr.scripts_composed Symbol.balanced_composed (first :: rest))
  refine Tells.ungroup (header.script ++ [.reserved .instanceWord]) hinner ?_ ?_
  · simp [TypeExpr.scripts]
  apply Tells.step (whereClause_reads hlevel)
  intro clause
  apply Tells.step (instanceValue_reads hlevel)
  intro value
  apply Tells.look
  intro span
  exact Tells.pure (by simp [Statement.contents])

/-!
## Statements
-/

theorem assignmentHead_reads (hlevel : level.Keeps A) :
    A.Reads 1 (assignmentHead level) (fun target => target.script ++ [.mark .colon]) := by
  apply Tells.bind (pattern_reads hlevel)
  intro target
  apply Tells.step (Reads.expectMark .colon)
  intro _
  exact Tells.pure rfl

theorem assignmentOrExpression_reads (hlevel : level.Keeps A) (start : Span) :
    A.Reads 1 (assignmentOrExpression level start) Statement.contents := by
  refine tells_tryFirst (ReadsIf.speculate (assignmentHead_reads hlevel)) ?_ (fun target => ?_) ?_
  · intro c target d hc htarget
    have hreply := ReadsIf.elim (assignmentHead_reads hlevel) hc trivial
    rw [speculate_eq_some htarget] at hreply
    rcases hreply with ⟨read, noted, passage, hleast, _⟩
    rw [passage.ahead, List.length_append]
    omega
  · apply Tells.step Reads.skipLineBreaks
    intro _
    apply Tells.step (expression_reads hlevel)
    intro value
    apply Tells.look
    intro span
    exact Tells.pure (by simp [Statement.contents])
  · apply Tells.bind (expression_reads hlevel)
    intro value
    apply Tells.look
    intro span
    exact Tells.pure rfl

theorem definitionHead?_reads : A.Reads 0 definitionHead? (optionScript headScript) := by
  apply Tells.look
  intro possible
  split
  · rename_i hpossible
    intro c hc hpre
    refine ReadsIf.speculate definitionHead_reads c hc ⟨hc.final, ?_⟩
    rw [hpre.2, hpossible]
  · exact Tells.pure rfl

theorem plainStatement_tells (hlevel : level.Keeps A) (start : Span) (header : Header) :
    A.Tells 1 (fun _ => True) header.script (plainStatement level start header)
      Statement.contents := by
  apply Tells.look
  intro constant
  split
  · exact constantDefinition_tells hlevel start header
  · split
    · rename_i hempty
      have hscript : header.script = [] := by
        rw [Header.script, List.isEmpty_iff.mp hempty]
        rfl
      rw [hscript]
      exact (assignmentOrExpression_reads hlevel start).readsIf
    · exact Tells.unexpected _

theorem statement_reads (hlevel : level.Keeps A) (comments : List Lexeme) :
    A.Reads 1 (statement level comments) Statement.contents := by
  apply Tells.look
  intro start
  apply Tells.lead attributes_reads
  intro found
  apply Tells.look
  intro isInstance
  split
  · exact instanceDefinition_tells hlevel start { comments := comments, attributes := found }
  · refine Tells.lead definitionHead?_reads (fun head => ?_)
    cases head with
    | some head =>
        apply Tells.look
        intro isType
        split
        · exact typeDefinition_tells hlevel start
            { comments := comments, attributes := found } head
        · exact traitDefinition_tells hlevel start
            { comments := comments, attributes := found } head
    | none =>
        have hplain := plainStatement_tells hlevel start
          { comments := comments, attributes := found }
        simpa [optionScript, Header.script] using hplain

/-!
## Levels
-/

theorem keeps_ofRoom
    (hbraced : forall room, (Level.ofRoom room).Keeps A ->
      A.Reads 1 (bracedExpression (Level.ofRoom room)) Expression.script) (room : Nat) :
    (Level.ofRoom room).Keeps A := by
  induction room with
  | zero =>
      exact
        { statement := fun _ => Reads.tooDeep
          expression := fun _ => Reads.tooDeep
          pattern := Reads.tooDeep
          type := Reads.tooDeep }
  | succ room ih =>
      exact
        { statement := fun comments => (statement_reads ih comments).nested
          expression := fun least => (binaryExpression_reads ih (hbraced _ ih) least).nested
          pattern := (orPattern_reads ih).nested
          type := (functionOrNamedType_reads ih).nested }

end Grammar
end Linewise
