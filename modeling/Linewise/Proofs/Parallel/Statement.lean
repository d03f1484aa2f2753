import Linewise.Proofs.Parallel.Expression

/-!
# Statements read side by side

The rules for statements lead pairs of cursors to pairs of cursors, and so does the
whole grammar, at every level.  The left side of an assignment is tried before
anything is noted, so the trial is not lost.
-/

namespace Linewise
namespace Grammar

open Linewise.Parser
open Linewise.Correspondence

variable {K : Correspondence} {level : Level} {lax k : Bool} {S : List Bracket} {p : Phase}
  {pre : Cursor -> Prop}

theorem Frame.noted (p : Phase) (S : List Bracket) (k : Bool) :
    Frame.Refines ⟨p, S, k⟩ ⟨p, S, false⟩ := ⟨rfl, Or.inr (Phase.Refines.refl p), by simp⟩

/-!
## Attributes
-/

theorem attributeValue_tracks (name : Lexeme) (start : Span) :
    K.Tracks lax S ⟨.joined, .square :: S, k⟩ pre (attributeValue name start)
      (attributeValue (name.relabel K.relabelling) (start.relabel K.relabelling))
      (fun _ => ⟨.joined, S, k⟩) (Attribute.relabel K.relabelling) := by
  apply Tracks.kindInside
  intro kind
  rcases kind with _ | _ | _ | _ | _ | _ | _ | _ | mark | word
  case number =>
    apply Tracks.bind Tracks.number
    intro value
    apply Tracks.bind (Tracks.closing .closeBracket rfl)
    intro _
    apply Tracks.spanFrom (Or.inr rfl)
    intro span
    exact Tracks.give rfl
  case text =>
    apply Tracks.bind Tracks.text
    intro value
    apply Tracks.bind (Tracks.closing .closeBracket rfl)
    intro _
    apply Tracks.spanFrom (Or.inr rfl)
    intro span
    exact Tracks.give rfl
  all_goals exact Tracks.unexpected _

theorem bracketedAttribute_tracks :
    K.Tracks lax S ⟨p, S, k⟩ pre bracketedAttribute bracketedAttribute
      (fun _ => ⟨.joined, S, k⟩) (Attribute.relabel K.relabelling) := by
  apply Tracks.bind (Tracks.opening .openBracket rfl)
  intro opening
  apply Tracks.bind (Tracks.lowercaseName _ (fun _ _ => Or.inr (Or.inl rfl)))
  intro name
  apply Tracks.isAt (by simp) (by simp)
  intro valued
  split
  · rename_i hvalued
    apply Tracks.bind (Tracks.advanceMark .colon rfl (fun c hc => hc.2.trans hvalued))
    intro _
    apply Tracks.bind Tracks.skipJoined
    intro _
    exact attributeValue_tracks name opening.span
  · apply Tracks.bind (Tracks.closing .closeBracket rfl)
    intro _
    apply Tracks.spanFrom (Or.inr rfl)
    intro span
    exact Tracks.give rfl

theorem attributeLine_reads {A : Account} : A.Reads 1 attributeLine Attribute.script :=
  Account.Tells.bind bracketedAttribute_reads (fun _ =>
    Account.Tells.step Account.Reads.skipLineBreaks (fun _ => Account.Tells.pure (by simp)))

theorem attributeLine_tracks :
    K.Tracks lax S ⟨p, S, k⟩ pre attributeLine attributeLine
      (fun _ => ⟨.expecting, S, k⟩) (Attribute.relabel K.relabelling) := by
  apply Tracks.bind bracketedAttribute_tracks
  intro found
  apply Tracks.bind Tracks.skipJoined
  intro _
  exact Tracks.value rfl ⟨rfl, Or.inr (Or.inr (Or.inr ⟨rfl, Or.inl rfl⟩)), id⟩

theorem attributes_tracks :
    K.Tracks lax S ⟨.expecting, S, k⟩ pre attributes attributes
      (fun _ => ⟨.expecting, S, k⟩) (List.map (Attribute.relabel K.relabelling)) :=
  Tracks.repeatWhile attributeLine_reads.readsIf attributeLine_reads.readsIf
    (fun _ hend => not_isAt_of_end (by simp) hend)
    (fun htwin => (steady_isAt (by simp) (by simp)).eq (alike htwin)) attributeLine_tracks

/-!
## Definitions
-/

theorem fieldDefinition_tracks (hlevel : level.Tracks K) :
    K.Tracks false S ⟨.joined, S, k⟩ pre (fieldDefinition level) (fieldDefinition level)
      (fun _ => ⟨.settled, S, k⟩) (Representation.relabelField K.relabelling) := by
  have hrefuses : Refuses variableName := (refuses_expectAs (by simp) (by simp) _).bind
  apply Tracks.start (fun _ => hrefuses.bind) (fun _ => hrefuses.bind)
  intro start
  apply Tracks.bind (Tracks.lowercaseName _ (fun _ _ => Or.inr (Or.inl rfl)))
  intro name
  apply Tracks.bind (Tracks.expectMark .doubleColon rfl)
  intro _
  apply Tracks.bind Tracks.skipJoined
  intro _
  apply Tracks.bind (signature_tracks hlevel).expecting
  intro found
  apply Tracks.spanFrom (Or.inl rfl)
  intro span
  exact Tracks.give rfl

theorem variantDefinition_tracks (hlevel : level.Tracks K) :
    K.Tracks false S ⟨.joined, S, k⟩ pre (variantDefinition level) (variantDefinition level)
      (fun _ => ⟨.settled, S, k⟩) (Representation.relabelVariant K.relabelling) := by
  have hrefuses : Refuses variantName := (refuses_expectAs (by simp) (by simp) _).bind
  apply Tracks.start (fun _ => hrefuses.bind) (fun _ => hrefuses.bind)
  intro start
  apply Tracks.bind (Tracks.capitalName _)
  intro name
  apply Tracks.bind (subtypes_tracks hlevel)
  intro elements
  apply Tracks.spanFrom (Or.inl rfl)
  intro span
  exact Tracks.give rfl

theorem representation_tracks (hlevel : level.Tracks K) :
    K.Tracks lax S ⟨p, S, k⟩ pre (representation level) (representation level)
      (fun _ => ⟨.settled, S, k⟩) (Representation.relabel K.relabelling) := by
  apply Tracks.bind (Tracks.opening .openCurly rfl)
  intro opening
  apply Tracks.bind Tracks.skipInside
  intro _
  apply Tracks.kindInside
  intro kind
  rcases kind with _ | _ | _ | _ | _ | _ | _ | _ | mark | word
  case capitalName =>
    apply Tracks.bind (Tracks.lines (by simp) (by simp) (variantDefinition_reads hlevel.keeps)
      (variantDefinition_reads hlevel.keeps) (variantDefinition_tracks hlevel).inner)
    intro variants
    apply Tracks.bind (Tracks.closing .closeCurly rfl)
    intro _
    apply Tracks.spanFrom (Or.inl rfl)
    intro span
    exact Tracks.give rfl
  case lowercaseName =>
    apply Tracks.bind (Tracks.lines (by simp) (by simp) (fieldDefinition_reads hlevel.keeps)
      (fieldDefinition_reads hlevel.keeps) (fieldDefinition_tracks hlevel).inner)
    intro fields
    apply Tracks.bind (Tracks.closing .closeCurly rfl)
    intro _
    apply Tracks.spanFrom (Or.inl rfl)
    intro span
    exact Tracks.give rfl
  all_goals exact Tracks.unexpected _

def DefinitionHead.relabel (ρ : Relabelling) (head : DefinitionHead) : DefinitionHead :=
  { name := head.name.relabel ρ, parameters := head.parameters.map (TypeFunction.relabel ρ) }

theorem atPair_eq {first second : Kind} {σ : Frame} {c d : Cursor} (htwin : K.Twin σ c d)
    (hend : first ≠ .endOfInput) (hbreak : first ≠ .lineBreak)
    (hplain : Bracket.plain first = true) (hend' : second ≠ .endOfInput)
    (hbreak' : second ≠ .lineBreak) : atPair first second d = atPair first second c := by
  have hat : d.isAt first = c.isAt first := (steady_isAt hend hbreak).eq (alike htwin)
  unfold atPair
  rw [hat]
  cases hc : c.isAt first with
  | false => rfl
  | true =>
      have hkind : c.kind = first := by simpa [Cursor.isAt] using hc
      have hsame := same_of_kind htwin (not_atMargin hkind hend hbreak)
      have hstep : Bracket.step σ.stack c.kind = some σ.stack := by
        rw [hkind]
        exact Bracket.step_plain hplain σ.stack
      have hcend : c.kind ≠ .endOfInput := by rwa [hkind]
      have hdend : d.kind ≠ .endOfInput := by rwa [kind_eq hsame]
      have htwin' := K.read htwin hsame hcend (by rwa [hkind]) hstep
      have hnext := (steady_isAt hend' hbreak').eq (alike htwin')
      rcases K.fits htwin with ⟨hcfits, hdfits, _⟩
      rw [Cursor.isAt, Cursor.isAt, Cursor.kind, Cursor.kind,
        Cursor.current_advance hcfits.final hcend,
        Cursor.current_advance hdfits.final hdend] at hnext
      rw [hnext]

theorem definitionHead_tracks :
    K.Tracks false S ⟨.expecting, S, k⟩
      (fun c => pre c ∧ atPair .capitalName (.mark .colon) c = true) definitionHead
      definitionHead (fun _ => ⟨.joined, S, k⟩) (DefinitionHead.relabel K.relabelling) := by
  apply Tracks.seq (fun _ c => c.isAt (.mark .colon) = true) (Tracks.capitalName _)
  · -- the colon behind the name was seen before the name was read
    intro c d name c' htwin hpre hname
    rcases leaf_eq_ok hname with ⟨hkind, hadvance⟩
    have hpair := hpre.2
    simp only [atPair, Bool.and_eq_true, beq_iff_eq] at hpair
    rw [hadvance, Cursor.isAt, Cursor.kind,
      Cursor.current_advance (K.fits htwin).1.final (by simp [hkind]), hpair.2]
    rfl
  intro name
  apply Tracks.bind (Tracks.advanceMark .colon rfl (fun _ hc => hc))
  intro _
  apply Tracks.bind Tracks.skipJoined
  intro _
  apply Tracks.bind (Tracks.speculate typeFunction_reads typeFunction_reads
    (fun _ _ => ⟨trivial, trivial⟩) typeFunction_tracks)
  intro parameters
  have hframe : (if parameters.isSome = true then ⟨.joined, S, k⟩ else ⟨.joined, S, k⟩ : Frame) =
      ⟨.joined, S, k⟩ := ite_self _
  rw [hframe]
  apply Tracks.isAt (by simp) (by simp)
  intro isType
  apply Tracks.isAt (by simp) (by simp)
  intro isTrait
  split
  · exact Tracks.give rfl
  · exact Tracks.unexpected _

theorem typeDefinition_tracks (hlevel : level.Tracks K) (start : Span) (header : Header)
    (head : DefinitionHead) :
    K.Tracks lax S ⟨p, S, k⟩ pre (typeDefinition level start header head)
      (typeDefinition level (start.relabel K.relabelling) (header.relabel K.relabelling)
        (head.relabel K.relabelling))
      (fun _ => ⟨.settled, S, false⟩) (Statement.relabel K.relabelling) := by
  have hbody : K.Tracks lax S ⟨.settled, S, k⟩ (fun _ => True) (some <$> representation level)
      (some <$> representation level) (fun _ => ⟨.settled, S, k⟩)
      (Option.map (Representation.relabel K.relabelling)) :=
    Tracks.map (representation_tracks hlevel) (fun _ => rfl)
  have hnone : K.Tracks lax S ⟨.settled, S, k⟩ (fun _ => True)
      (pure none : Parser (Option Representation)) (pure none) (fun _ => ⟨.settled, S, k⟩)
      (Option.map (Representation.relabel K.relabelling)) := Tracks.give rfl
  apply Tracks.bind (Tracks.expectReserved .typeWord)
  intro _
  apply Tracks.isAt (by simp) (by simp)
  intro braced
  split
  · apply Tracks.bind (hbody.given (fun _ _ => trivial))
    intro body
    apply Tracks.spanFrom (Or.inl rfl)
    intro span
    exact Tracks.value rfl (Frame.noted _ _ _)
  · apply Tracks.bind (hnone.given (fun _ _ => trivial))
    intro body
    apply Tracks.spanFrom (Or.inl rfl)
    intro span
    exact Tracks.value rfl (Frame.noted _ _ _)

theorem traitDefinition_tracks (hlevel : level.Tracks K) (start : Span) (header : Header)
    (head : DefinitionHead) :
    K.Tracks lax S ⟨p, S, k⟩ pre (traitDefinition level start header head)
      (traitDefinition level (start.relabel K.relabelling) (header.relabel K.relabelling)
        (head.relabel K.relabelling))
      (fun _ => ⟨.settled, S, false⟩) (Statement.relabel K.relabelling) := by
  have htype : K.Tracks lax S ⟨.settled, S, k⟩ (fun c => c.current.startsType = true)
      (some <$> subtype level) (some <$> subtype level) (fun _ => ⟨.settled, S, k⟩)
      (Option.map (TypeExpr.relabel K.relabelling)) :=
    Tracks.map (subtype_tracks hlevel (fun _ => begins_of_startsType)) (fun _ => rfl)
  have hnone : K.Tracks lax S ⟨.settled, S, k⟩ (fun _ => True)
      (pure none : Parser (Option TypeExpr)) (pure none) (fun _ => ⟨.settled, S, k⟩)
      (Option.map (TypeExpr.relabel K.relabelling)) := Tracks.give rfl
  have hrest : forall type : Option TypeExpr,
      K.Tracks lax S ⟨.settled, S, k⟩ (fun _ => True)
        (do let clause <- whereClause level
            let span <- spanFrom start
            pure (.traitDefinition header head.name head.parameters type clause span))
        (do let clause <- whereClause level
            let span <- spanFrom (start.relabel K.relabelling)
            pure (.traitDefinition (header.relabel K.relabelling)
              (head.relabel K.relabelling).name (head.relabel K.relabelling).parameters
              (type.map (TypeExpr.relabel K.relabelling)) clause span))
        (fun _ => ⟨.settled, S, false⟩) (Statement.relabel K.relabelling) := by
    intro type
    apply Tracks.bind (whereClause_tracks hlevel)
    intro clause
    apply Tracks.spanFrom (Or.inl rfl)
    intro span
    exact Tracks.value rfl (Frame.noted _ _ _)
  apply Tracks.bind (Tracks.expectReserved .traitWord)
  intro _
  apply Tracks.test steady_startsType
  intro typed
  split
  · rename_i htyped
    exact Tracks.bind (htype.given (fun c hc => hc.2.trans htyped)) hrest
  · exact Tracks.bind (hnone.given (fun _ _ => trivial)) hrest

theorem constantDefinition_tracks (hlevel : level.Tracks K) (start : Span) (header : Header) :
    K.Tracks lax S ⟨.expecting, S, k⟩ pre (constantDefinition level start header)
      (constantDefinition level (start.relabel K.relabelling) (header.relabel K.relabelling))
      (fun _ => ⟨.settled, S, false⟩) (Statement.relabel K.relabelling) := by
  apply Tracks.bind (Tracks.lowercaseName _ (fun _ _ => Or.inl rfl))
  intro name
  apply Tracks.bind (Tracks.expectMark .doubleColon rfl)
  intro _
  apply Tracks.bind Tracks.skipJoined
  intro _
  apply Tracks.bind (signature_tracks hlevel).expecting
  intro found
  apply Tracks.spanFrom (Or.inl rfl)
  intro span
  exact Tracks.value rfl (Frame.noted _ _ _)

theorem instanceValue_tracks (hlevel : level.Tracks K) :
    K.Tracks true S ⟨.settled, S, k⟩ pre (instanceValue level) (instanceValue level)
      (fun _ => ⟨.settled, S, false⟩) (Option.map (Expression.relabel K.relabelling)) := by
  apply Tracks.isAt (by simp) (by simp)
  intro valued
  split
  · rename_i hvalued
    apply Tracks.bind (Tracks.advanceMark .colon rfl (fun c hc => hc.2.trans hvalued))
    intro _
    apply Tracks.bind Tracks.skipJoined
    intro _
    exact Tracks.map (Tracks.from (Frame.noted _ _ _) (expression_tracks hlevel).expecting)
      (fun _ => rfl)
  · exact Tracks.value rfl (Frame.noted _ _ _)

theorem instanceDefinition_tracks (hlevel : level.Tracks K) (start : Span) (header : Header) :
    K.Tracks true S ⟨p, S, k⟩ pre (instanceDefinition level start header)
      (instanceDefinition level (start.relabel K.relabelling) (header.relabel K.relabelling))
      (fun _ => ⟨.settled, S, false⟩) (Statement.relabel K.relabelling) := by
  have htype : K.Tracks true (.round :: S) ⟨.settled, .round :: S, k⟩ (fun _ => True)
      (subtype level) (subtype level) (fun _ => ⟨.settled, .round :: S, k⟩)
      (TypeExpr.relabel K.relabelling) :=
    Tracks.inside (subtype_tracks hlevel (fun _ _ => Or.inl rfl))
  have htypes : K.Tracks true (.round :: S) ⟨.settled, .round :: S, k⟩ (fun _ => True)
      (subtypes level) (subtypes level) (fun _ => ⟨.settled, .round :: S, k⟩)
      (List.map (TypeExpr.relabel K.relabelling)) := subtypes_tracks hlevel
  apply Tracks.bind (Tracks.expectReserved .instanceWord)
  intro _
  apply Tracks.bind (Tracks.opening .openParen rfl)
  intro _
  apply Tracks.bind (Tracks.capitalName _)
  intro trait
  apply Tracks.bind htype.inner
  intro first
  apply Tracks.bind htypes.inner
  intro rest
  apply Tracks.bind (Tracks.closing .closeParen rfl)
  intro _
  apply Tracks.bind (whereClause_tracks hlevel)
  intro clause
  apply Tracks.bind (instanceValue_tracks hlevel)
  intro value
  apply Tracks.spanFrom (Or.inl rfl)
  intro span
  exact Tracks.give (by cases value <;> simp [Statement.relabel])

/-!
## Statements
-/

theorem assignmentHead_tracks (hlevel : level.Tracks K) :
    K.Tracks (!k) S ⟨.expecting, S, k⟩ pre (assignmentHead level) (assignmentHead level)
      (fun _ => ⟨.joined, S, k⟩) (Pattern.relabel K.relabelling) := by
  apply Tracks.bind (pattern_tracks hlevel)
  intro target
  apply Tracks.bind (Tracks.expectMark .colon rfl)
  intro _
  exact Tracks.give rfl

/-- The left side is tried without loss, so both readings find an assignment or both
find none. -/
theorem assignmentOrExpression_tracks (hlevel : level.Tracks K)
    (hnever : k = false -> K.Lossy -> S ≠ []) (start : Span) :
    K.Tracks true S ⟨.expecting, S, k⟩ pre (assignmentOrExpression level start)
      (assignmentOrExpression level (start.relabel K.relabelling))
      (fun _ => ⟨.settled, S, false⟩) (Statement.relabel K.relabelling) := by
  have htrial : K.Tracks false S ⟨.expecting, S, k⟩ pre (assignmentHead level)
      (assignmentHead level) (fun _ => ⟨.joined, S, k⟩) (Pattern.relabel K.relabelling) :=
    Tracks.tighten (fun hlax => hnever (by simpa using hlax)) (assignmentHead_tracks hlevel)
  apply Tracks.bind (Tracks.speculate (assignmentHead_reads hlevel.keeps)
    (assignmentHead_reads hlevel.keeps) (fun _ _ => ⟨trivial, trivial⟩) htrial)
  intro target
  cases target with
  | some target =>
      apply Tracks.bind Tracks.skipJoined
      intro _
      apply Tracks.bind (Tracks.from (Frame.noted _ _ _) (expression_tracks hlevel).expecting)
      intro value
      apply Tracks.spanFrom (Or.inl rfl)
      intro span
      exact Tracks.give (by simp [Statement.relabel])
  | none =>
      apply Tracks.bind (Tracks.from (Frame.noted _ _ _) (expression_tracks hlevel))
      intro value
      apply Tracks.spanFrom (Or.inl rfl)
      intro span
      exact Tracks.give (by simp [Statement.relabel])

theorem definitionHead?_tracks :
    K.Tracks lax S ⟨.expecting, S, k⟩ pre definitionHead? definitionHead?
      (fun found => if found.isSome then ⟨.joined, S, k⟩ else ⟨.expecting, S, k⟩)
      (Option.map (DefinitionHead.relabel K.relabelling)) := by
  have hpair : forall {c d}, K.Twin ⟨.expecting, S, k⟩ c d ->
      atPair .capitalName (.mark .colon) d = atPair .capitalName (.mark .colon) c :=
    fun htwin => atPair_eq htwin (by simp) (by simp) rfl (by simp) (by simp)
  apply Tracks.look (fun htwin _ => hpair htwin)
  intro possible
  split
  · rename_i hpossible
    refine Tracks.speculate definitionHead_reads definitionHead_reads ?_
      (definitionHead_tracks.given (fun c hc => ⟨trivial, hc.2.trans hpossible⟩))
    intro c d htwin hc
    have hat := hc.2.trans hpossible
    rcases K.fits htwin with ⟨hcfits, hdfits, _⟩
    exact ⟨⟨hcfits.final, hat⟩, hdfits.final, (hpair htwin).trans hat⟩
  · exact Tracks.value rfl (Frame.refines_refl _)

theorem plainStatement_tracks (hlevel : level.Tracks K)
    (hnever : k = false -> K.Lossy -> S ≠ []) (start : Span) (header : Header) :
    K.Tracks true S ⟨.expecting, S, k⟩ pre (plainStatement level start header)
      (plainStatement level (start.relabel K.relabelling) (header.relabel K.relabelling))
      (fun _ => ⟨.settled, S, false⟩) (Statement.relabel K.relabelling) := by
  apply Tracks.look
    (fun htwin _ => atPair_eq htwin (by simp) (by simp) rfl (by simp) (by simp))
  intro constant
  have hplain : (header.relabel K.relabelling).attributes.isEmpty = header.attributes.isEmpty :=
    List.isEmpty_map ..
  rw [hplain]
  split
  · exact constantDefinition_tracks hlevel start header
  · split
    · exact assignmentOrExpression_tracks hlevel hnever start
    · exact Tracks.unexpected _

theorem statement_tracks (hlevel : level.Tracks K) (hnever : k = false -> K.Lossy -> S ≠ [])
    (hmargin : forall c, pre c -> ¬ c.AtMargin) (comments : List Lexeme) :
    K.Tracks true S ⟨.expecting, S, k⟩ pre (statement level comments)
      (statement level (K.relabelling.comments comments))
      (fun _ => ⟨.settled, S, false⟩) (Statement.relabel K.relabelling) := by
  apply Tracks.startAt hmargin
  intro start
  apply Tracks.bind attributes_tracks
  intro found
  apply Tracks.isAt (by simp) (by simp)
  intro isInstance
  split
  · exact instanceDefinition_tracks hlevel start ⟨comments, found⟩
  · apply Tracks.bind definitionHead?_tracks
    intro head
    cases head with
    | some head =>
        apply Tracks.isAt (by simp) (by simp)
        intro isType
        cases isType with
        | true => exact typeDefinition_tracks hlevel start ⟨comments, found⟩ head
        | false => exact traitDefinition_tracks hlevel start ⟨comments, found⟩ head
    | none =>
        exact plainStatement_tracks hlevel hnever start ⟨comments, found⟩

/-!
## Levels
-/

theorem tracks_ofRoom (K : Correspondence) (room : Nat) : (Level.ofRoom room).Tracks K := by
  have hkeeps := keeps_recovery plainRecovery
  induction room with
  | zero =>
      exact {
        keeps := hkeeps 0
        spans := spans_ofRoom 0
        braced := bracedExpression_reads (hkeeps 0) (spans_ofRoom 0)
        type_refuses := refuses_tooDeep
        pattern_refuses := refuses_tooDeep
        expression_refuses := fun _ => refuses_tooDeep
        type := Tracks.tooDeep
        pattern := Tracks.tooDeep
        expression := fun _ => Tracks.tooDeep
        statement := fun _ _ _ => Tracks.tooDeep }
  | succ room ih =>
      exact {
        keeps := hkeeps (room + 1)
        spans := spans_ofRoom (room + 1)
        braced := bracedExpression_reads (hkeeps (room + 1)) (spans_ofRoom (room + 1))
        type_refuses := (functionOrNamedType_refuses _).nested
        pattern_refuses := (orPattern_refuses _).nested
        expression_refuses := fun least => (binaryExpression_refuses _ least).nested
        type :=
          Tracks.nested (fun _ => True) (fun _ _ => trivial) (functionOrNamedType_tracks ih)
        pattern := Tracks.nested (fun _ => True) (fun _ _ => trivial) (orPattern_tracks ih)
        expression := fun least =>
          Tracks.nested (fun _ => True) (fun _ _ => trivial) (binaryExpression_tracks ih least)
        statement := fun comments hnever hmargin =>
          Tracks.nested (fun c => ¬ c.AtMargin) hmargin
            (statement_tracks ih hnever (fun _ hc => hc) comments) }

end Grammar
end Linewise
