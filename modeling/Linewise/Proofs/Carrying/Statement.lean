import Linewise.Proofs.Carrying.Expression
import Linewise.Proofs.Parallel.Statement

/-!
# Statements carried over

The rules for statements carry a reading over, and so does the whole grammar, at every
level that both readings may open.
-/

namespace Linewise
namespace Grammar

open Linewise.Parser
open Linewise.Pairing

variable {P : Pairing} {level : Level} {sharp : Bool} {S : List Bracket} {k : Nat}
  {pre : Cursor -> Prop}

/-!
## Attributes
-/

theorem attributeValue_carries (name : Lexeme) (start : Span) :
    P.Carries sharp ⟨false, .square :: S, k⟩ pre (attributeValue name start)
      (fun _ => ⟨false, S, k⟩) := by
  apply Carries.kindInside (Or.inr (by simp))
  intro kind
  split
  · apply Carries.bind Carries.text
    intro value
    apply Carries.bind (Carries.expectAs (by simp) rfl _)
    intro _
    apply Carries.spanFrom
    intro span
    exact Carries.give
  · apply Carries.bind Carries.number
    intro value
    apply Carries.bind (Carries.expectAs (by simp) rfl _)
    intro _
    apply Carries.spanFrom
    intro span
    exact Carries.give
  · exact Carries.unexpected _

theorem bracketedAttribute_carries :
    P.Carries sharp ⟨false, S, k⟩ pre bracketedAttribute (fun _ => ⟨false, S, k⟩) := by
  apply Carries.bind (Carries.expectAs (by simp) rfl _)
  intro opening
  apply Carries.bind (Carries.lowercaseName _)
  intro name
  apply Carries.isAt (by simp) (by simp)
  intro valued
  split
  · rename_i hvalued
    apply Carries.bind (Carries.advanceAt (.mark .colon) (by simp)
      (Bracket.step_plain rfl _) (fun c hc => hc.2.trans hvalued))
    intro _
    apply Carries.skip
    exact attributeValue_carries name opening.span
  · apply Carries.bind (Carries.expectAs (by simp) rfl _)
    intro _
    apply Carries.spanFrom
    intro span
    exact Carries.give

theorem attributes_carries :
    P.Carries sharp ⟨false, S, k⟩ pre attributes (fun _ => ⟨false, S, k⟩) := by
  refine Carries.repeatWhile attributeLine_reads.readsIf
    (fun _ hend => not_isAt_of_end (by simp) hend)
    (fun htwin => (steady_isAt (by simp) (by simp)).eq htwin) ?_
  apply Carries.bind bracketedAttribute_carries
  intro found
  apply Carries.skip
  exact Carries.give

/-!
## Definitions
-/

theorem fieldDefinition_carries (hlevel : level.Carries P k) (hstack : P.Whole ∨ S ≠ []) :
    P.Carries sharp ⟨false, S, k⟩ pre (fieldDefinition level) (fun _ => ⟨false, S, k⟩) := by
  apply Carries.startInside hstack
  intro start
  apply Carries.bind (Carries.lowercaseName _)
  intro name
  apply Carries.bind (Carries.expectPlain (by simp) rfl _)
  intro _
  apply Carries.skip
  apply Carries.bind (signature_carries hlevel)
  intro found
  apply Carries.spanFrom
  intro span
  exact Carries.give

theorem variantDefinition_carries (hlevel : level.Carries P k) (hstack : P.Whole ∨ S ≠ []) :
    P.Carries sharp ⟨false, S, k⟩ pre (variantDefinition level) (fun _ => ⟨false, S, k⟩) := by
  apply Carries.startInside hstack
  intro start
  apply Carries.bind (Carries.capitalName _)
  intro name
  apply Carries.bind (subtypes_carries hlevel)
  intro elements
  apply Carries.spanFrom
  intro span
  exact Carries.give

theorem representation_carries (hlevel : level.Carries P k) :
    P.Carries sharp ⟨false, S, k⟩ pre (representation level) (fun _ => ⟨false, S, k⟩) := by
  have hinside : P.Whole ∨ Bracket.curly :: S ≠ [] := Or.inr (by simp)
  apply Carries.bind (Carries.expectAs (by simp) rfl _)
  intro opening
  apply Carries.skip
  apply Carries.kindInside hinside
  intro kind
  split
  · apply Carries.bind (Carries.lines (fieldDefinition_reads hlevel.keeps)
      (fieldDefinition_carries hlevel hinside))
    intro fields
    apply Carries.bind (Carries.expectAs (by simp) rfl _)
    intro _
    apply Carries.spanFrom
    intro span
    exact Carries.give
  · apply Carries.bind (Carries.lines (variantDefinition_reads hlevel.keeps)
      (variantDefinition_carries hlevel hinside))
    intro variants
    apply Carries.bind (Carries.expectAs (by simp) rfl _)
    intro _
    apply Carries.spanFrom
    intro span
    exact Carries.give
  · exact Carries.unexpected _

theorem atPair_of_twin {first second : Kind} {c d : Cursor} (htwin : P.Twin ⟨false, S, k⟩ c d)
    (hend : first ≠ .endOfInput) (hplain : Bracket.plain first = true)
    (hjoins : first.joins = false) (hend' : second ≠ .endOfInput)
    (hplain' : Bracket.plain second = true) : atPair first second d = atPair first second c := by
  have hat : d.isAt first = c.isAt first := isAt_eq htwin hend (Bracket.step_plain hplain S)
  unfold atPair
  rw [hat]
  cases hc : c.isAt first with
  | false => rfl
  | true =>
      have hkind : c.kind = first := by simpa [Cursor.isAt] using hc
      have hstep : Bracket.step S c.kind = some S := by
        rw [hkind]
        exact Bracket.step_plain hplain S
      rcases peek_of_twin htwin (by rwa [hkind]) hstep (by rwa [hkind]) with
        ⟨hpeek', hpeek, htwin'⟩
      have hnext : d.advance.isAt second = c.advance.isAt second :=
        isAt_eq htwin' hend' (Bracket.step_plain hplain' S)
      rw [hpeek, hpeek']
      exact congrArg (true && ·) hnext

theorem definitionHead_carries :
    P.Carries sharp ⟨false, S, k⟩
      (fun c => pre c ∧ atPair .capitalName (.mark .colon) c = true) definitionHead
      (fun _ => ⟨false, S, k⟩) := by
  apply Carries.seq (fun _ c => c.isAt (.mark .colon) = true) (Carries.capitalName _)
  · -- the colon behind the name was seen before the name was read
    intro c d name c' htwin hpre hname
    rcases leaf_eq_ok hname with ⟨hkind, hadvance⟩
    have hpair := hpre.2
    simp only [atPair, Bool.and_eq_true, beq_iff_eq] at hpair
    rw [hadvance, Cursor.isAt, Cursor.kind,
      Cursor.current_advance (P.fits htwin).1.final (by simp [hkind]), hpair.2]
    rfl
  intro name
  apply Carries.bind (Carries.advanceAt _ (by simp) (Bracket.step_plain rfl S) (fun _ hc => hc))
  intro _
  apply Carries.skip
  apply Carries.bind (Carries.speculate typeFunction_reads (fun _ _ => ⟨trivial, trivial⟩)
    typeFunction_carries)
  intro parameters
  rw [ite_self]
  apply Carries.isAt (by simp) (by simp)
  intro isType
  apply Carries.isAt (by simp) (by simp)
  intro isTrait
  split
  · exact Carries.give
  · exact Carries.unexpected _

theorem typeDefinition_carries (hlevel : level.Carries P k) (start : Span) (header : Header)
    (head : DefinitionHead) :
    P.Carries sharp ⟨false, S, k⟩ pre (typeDefinition level start header head)
      (fun _ => ⟨false, S, k⟩) := by
  have hrest : forall body : Option Representation, P.Carries sharp ⟨false, S, k⟩ (fun _ => True)
      (do let span <- spanFrom start
          pure (.typeDefinition header head.name head.parameters body span))
      (fun _ : Statement => ⟨false, S, k⟩) := by
    intro body
    apply Carries.spanFrom
    intro span
    exact Carries.give
  apply Carries.bind (Carries.expectPlain (by simp) rfl _)
  intro _
  apply Carries.isAt (by simp) (by simp)
  intro braced
  split
  · exact Carries.bind (Carries.map (representation_carries hlevel)) hrest
  · exact Carries.bind Carries.give hrest

theorem traitDefinition_carries (hlevel : level.Carries P k) (start : Span) (header : Header)
    (head : DefinitionHead) :
    P.Carries sharp ⟨false, S, k⟩ pre (traitDefinition level start header head)
      (fun _ => ⟨false, S, k⟩) := by
  have hrest : forall type : Option TypeExpr, P.Carries sharp ⟨false, S, k⟩ (fun _ => True)
      (do let clause <- whereClause level
          let span <- spanFrom start
          pure (.traitDefinition header head.name head.parameters type clause span))
      (fun _ : Statement => ⟨false, S, k⟩) := by
    intro type
    apply Carries.bind (whereClause_carries hlevel)
    intro clause
    apply Carries.spanFrom
    intro span
    exact Carries.give
  apply Carries.bind (Carries.expectPlain (by simp) rfl _)
  intro _
  apply Carries.test steady_startsType
  intro typed
  split
  · exact Carries.bind (Carries.map (subtype_carries hlevel)) hrest
  · exact Carries.bind Carries.give hrest

theorem constantDefinition_carries (hlevel : level.Carries P k) (start : Span)
    (header : Header) :
    P.Carries sharp ⟨false, S, k⟩ pre (constantDefinition level start header)
      (fun _ => ⟨false, S, k⟩) := by
  apply Carries.bind (Carries.lowercaseName _)
  intro name
  apply Carries.bind (Carries.expectPlain (by simp) rfl _)
  intro _
  apply Carries.skip
  apply Carries.bind (signature_carries hlevel)
  intro found
  apply Carries.spanFrom
  intro span
  exact Carries.give

theorem instanceValue_carries (hlevel : level.Carries P k) (hstack : P.Whole ∨ S ≠ []) :
    P.Carries false ⟨false, S, k⟩ pre (instanceValue level) (fun _ => ⟨false, S, k⟩) := by
  apply Carries.isAt (by simp) (by simp)
  intro valued
  split
  · rename_i hvalued
    apply Carries.bind (Carries.advanceAt (.mark .colon) (by simp)
      (Bracket.step_plain rfl S) (fun c hc => hc.2.trans hvalued))
    intro _
    apply Carries.skip
    exact Carries.map (expression_carries hlevel hstack)
  · exact Carries.give

theorem instanceDefinition_carries (hlevel : level.Carries P k) (hstack : P.Whole ∨ S ≠ [])
    (start : Span) (header : Header) :
    P.Carries false ⟨false, S, k⟩ pre (instanceDefinition level start header)
      (fun _ => ⟨false, S, k⟩) := by
  apply Carries.bind (Carries.expectPlain (by simp) rfl _)
  intro _
  apply Carries.bind (Carries.expectAs (by simp) rfl _)
  intro _
  apply Carries.bind (Carries.capitalName _)
  intro trait
  apply Carries.bind (subtype_carries hlevel)
  intro first
  apply Carries.bind (subtypes_carries hlevel)
  intro rest
  apply Carries.bind (Carries.expectAs (by simp) rfl _)
  intro _
  apply Carries.bind (whereClause_carries hlevel)
  intro clause
  apply Carries.bind (instanceValue_carries hlevel hstack)
  intro value
  apply Carries.spanFrom
  intro span
  exact Carries.give

/-!
## Statements
-/

theorem assignmentHead_carries (hlevel : level.Carries P k) :
    P.Carries sharp ⟨false, S, k⟩ pre (assignmentHead level) (fun _ => ⟨true, S, k⟩) := by
  apply Carries.bind (pattern_carries hlevel)
  intro target
  apply Carries.bind (Carries.expectPlain (by simp) rfl _)
  intro _
  exact Carries.give

theorem assignmentOrExpression_carries (hlevel : level.Carries P k) (hstack : P.Whole ∨ S ≠ [])
    (start : Span) :
    P.Carries false ⟨false, S, k⟩ pre (assignmentOrExpression level start)
      (fun _ => ⟨false, S, k⟩) := by
  apply Carries.bind (Carries.speculate (assignmentHead_reads hlevel.keeps)
    (fun _ _ => ⟨trivial, trivial⟩) (assignmentHead_carries hlevel))
  intro target
  cases target with
  | some target =>
      apply Carries.skip
      apply Carries.bind (expression_carries hlevel hstack)
      intro value
      apply Carries.spanFrom
      intro span
      exact Carries.give
  | none =>
      apply Carries.bind (expression_carries hlevel hstack)
      intro value
      apply Carries.spanFrom
      intro span
      exact Carries.give

theorem definitionHead?_carries :
    P.Carries sharp ⟨false, S, k⟩ pre definitionHead? (fun _ => ⟨false, S, k⟩) := by
  have hpair : forall {c d}, P.Twin ⟨false, S, k⟩ c d ->
      atPair .capitalName (.mark .colon) d = atPair .capitalName (.mark .colon) c :=
    fun htwin => atPair_of_twin htwin (by simp) rfl rfl (by simp) rfl
  apply Carries.look (fun htwin _ => hpair htwin)
  intro possible
  split
  · rename_i hpossible
    have htrial : P.Carries sharp ⟨false, S, k⟩
        (fun c => pre c ∧ atPair .capitalName (.mark .colon) c = possible)
        (speculate definitionHead)
        (fun found => if found.isSome then ⟨false, S, k⟩ else ⟨false, S, k⟩) := by
      refine Carries.speculate definitionHead_reads ?_
        (definitionHead_carries.given (fun c hc => ⟨trivial, hc.2.trans hpossible⟩))
      intro c d htwin hc
      have hat := hc.2.trans hpossible
      rcases P.fits htwin with ⟨hcfits, hdfits⟩
      exact ⟨⟨hcfits.final, hat⟩, hdfits.final, (hpair htwin).trans hat⟩
    simpa only [ite_self] using htrial
  · exact Carries.give

theorem plainStatement_carries (hlevel : level.Carries P k) (hstack : P.Whole ∨ S ≠ [])
    (start : Span) (header : Header) :
    P.Carries false ⟨false, S, k⟩ pre (plainStatement level start header)
      (fun _ => ⟨false, S, k⟩) := by
  apply Carries.look
    (fun htwin _ => atPair_of_twin htwin (by simp) rfl rfl (by simp) rfl)
  intro constant
  split
  · exact constantDefinition_carries hlevel start header
  · split
    · exact assignmentOrExpression_carries hlevel hstack start
    · exact Carries.unexpected _

theorem statement_carries (hlevel : level.Carries P k) (hstack : P.Whole ∨ S ≠ [])
    (comments : List Lexeme) :
    P.Carries false ⟨false, S, k⟩ pre (statement level comments) (fun _ => ⟨false, S, k⟩) := by
  apply Carries.startInside hstack
  intro start
  apply Carries.bind attributes_carries
  intro found
  apply Carries.isAt (by simp) (by simp)
  intro isInstance
  split
  · exact instanceDefinition_carries hlevel hstack start ⟨comments, found⟩
  · apply Carries.bind definitionHead?_carries
    intro head
    cases head with
    | some head =>
        apply Carries.isAt (by simp) (by simp)
        intro isType
        cases isType with
        | true => exact typeDefinition_carries hlevel start ⟨comments, found⟩ head
        | false => exact traitDefinition_carries hlevel start ⟨comments, found⟩ head
    | none => exact plainStatement_carries hlevel hstack start ⟨comments, found⟩

/-!
## Levels
-/

/-- Every level carries a reading over, if the second reading has room for as many levels. -/
theorem carries_ofRoom (P : Pairing) (room : Nat) {k : Nat}
    (hroom : k + room + P.lift <= maxDepth) : (Level.ofRoom room).Carries P k := by
  have hkeeps := keeps_recovery plainRecovery
  induction room generalizing k with
  | zero =>
      exact {
        keeps := hkeeps 0
        spans := spans_ofRoom 0
        braced := bracedExpression_reads (hkeeps 0) (spans_ofRoom 0)
        type_balks := balks_tooDeep
        pattern_balks := balks_tooDeep
        expression_balks := fun _ => balks_tooDeep
        type := Carries.tooDeep
        pattern := Carries.tooDeep
        expression := fun _ => Carries.tooDeep
        statement := fun _ _ => Carries.tooDeep }
  | succ room ih =>
      have hlevel : (Level.ofRoom room).Carries P (k + 1) := ih (by omega)
      have hopen : k + P.lift < maxDepth := by omega
      exact {
        keeps := hkeeps (room + 1)
        spans := spans_ofRoom (room + 1)
        braced := bracedExpression_reads (hkeeps (room + 1)) (spans_ofRoom (room + 1))
        type_balks := (functionOrNamedType_balks _).nested
        pattern_balks := (orPattern_balks _).nested
        expression_balks := fun least => (binaryExpression_balks _ least).nested
        type := Carries.nested hopen (functionOrNamedType_carries hlevel)
        pattern := Carries.nested hopen (orPattern_carries hlevel)
        expression := fun least => Carries.nested hopen (binaryExpression_carries hlevel least)
        statement := fun comments hstack =>
          Carries.nested hopen (statement_carries hlevel hstack comments) }

end Grammar
end Linewise
