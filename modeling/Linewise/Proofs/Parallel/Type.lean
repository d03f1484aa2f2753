import Linewise.Proofs.Parallel.Combinator

/-!
# Types read side by side

The rules of the type grammar lead pairs of cursors to pairs of cursors.  No rule
skips line breaks behind an operator word, so the first reading is never lost.
-/

namespace Linewise

open Linewise.Correspondence

/-- The four rules of a level lead pairs of cursors to pairs of cursors.  Types are
read without loss; patterns are where nothing was noted since the statement began;
expressions and statements may be lost, but the trials of a statement may not. -/
structure Level.Tracks (K : Correspondence) (level : Level) : Prop where
  keeps : level.Keeps plainRecovery.toAccount
  spans : Grammar.LevelSpans level
  braced : plainRecovery.Reads 1 (Grammar.bracedExpression level) Expression.script
  type_refuses : Refuses level.type
  pattern_refuses : Refuses level.pattern
  expression_refuses : forall least, Refuses (level.expression least)
  type : forall {S k pre},
    K.Tracks false S ⟨.expecting, S, k⟩ pre level.type level.type (fun _ => ⟨.settled, S, k⟩)
      (TypeExpr.relabel K.relabelling)
  pattern : forall {S k pre},
    K.Tracks (!k) S ⟨.expecting, S, k⟩ pre level.pattern level.pattern
      (fun _ => ⟨.settled, S, k⟩) (Pattern.relabel K.relabelling)
  expression : forall {S pre} (least : Nat),
    K.Tracks true S ⟨.expecting, S, false⟩ pre (level.expression least)
      (level.expression least) (fun _ => ⟨.settled, S, false⟩) (Expression.relabel K.relabelling)
  statement : forall {S k pre} (comments : List Lexeme), (k = false -> K.Lossy -> S ≠ []) ->
    (forall c, pre c -> ¬ c.AtMargin) ->
    K.Tracks true S ⟨.expecting, S, k⟩ pre (level.statement comments)
      (level.statement (K.relabelling.comments comments))
      (fun _ => ⟨.settled, S, false⟩) (Statement.relabel K.relabelling)

namespace Correspondence

theorem Refuses.kind {α : Type} {next : Kind -> Parser α} (hend : Refuses (next .endOfInput))
    (hbreak : Refuses (next .lineBreak)) : Refuses (Parser.currentKind >>= next) := by
  intro c hc
  show exists g, next c.kind c = .error g c
  rcases hc with hkind | hkind
  · rw [hkind]
    exact hend c (Or.inl hkind)
  · rw [hkind]
    exact hbreak c (Or.inr hkind)

theorem Tracks.expecting {α : Type} {K : Correspondence} {lax k : Bool} {S T : List Bracket}
    {pre : Cursor -> Prop} {first second : Parser α} {τ : α -> Frame} {move : α -> α}
    (h : K.Tracks lax S ⟨.expecting, T, k⟩ pre first second τ move) :
    K.Tracks lax S ⟨.joined, T, k⟩ pre first second τ move := by
  have hrefines : Frame.Refines ⟨.joined, T, k⟩ ⟨.expecting, T, k⟩ :=
    ⟨rfl, Or.inr (Or.inr (Or.inr ⟨rfl, Or.inl rfl⟩)), id⟩
  exact Tracks.from hrefines h

end Correspondence

namespace Grammar

open Linewise.Parser

variable {K : Correspondence} {level : Level} {lax k : Bool} {S : List Bracket} {p : Phase}
  {pre : Cursor -> Prop}

/-!
## Subtypes
-/

theorem subtype_refuses (level : Level) : Refuses (subtype level) :=
  Refuses.kind (refuses_unexpected _) (refuses_unexpected _)

theorem blockType_tracks (hlevel : level.Tracks K) :
    K.Tracks lax S ⟨p, S, k⟩ pre (blockType level) (blockType level)
      (fun _ => ⟨.settled, S, k⟩) (TypeExpr.relabel K.relabelling) := by
  apply Tracks.bind (Tracks.opening .openCurly rfl)
  intro opening
  apply Tracks.bind Tracks.skipInside
  intro _
  apply Tracks.bind hlevel.type.inner.expecting
  intro output
  apply Tracks.bind Tracks.skipInside
  intro _
  apply Tracks.bind (Tracks.closing .closeCurly rfl)
  intro _
  apply Tracks.spanFrom (Or.inl rfl)
  intro span
  exact Tracks.give rfl

theorem semicolon_separates (kind : Kind) (h : kind ∈ [Kind.mark .semicolon]) :
    kind = .mark .semicolon ∨ kind = .mark .comma := Or.inl (List.mem_singleton.mp h)

theorem parenthesizedType_tracks (hlevel : level.Tracks K) :
    K.Tracks lax S ⟨p, S, k⟩ pre (parenthesizedType level) (parenthesizedType level)
      (fun _ => ⟨.settled, S, k⟩) (TypeExpr.relabel K.relabelling) := by
  have hrefuses : Refuses (enclosed "tuple type" [.mark .semicolon] level.type) :=
    (refuses_expectAs (by simp) (by simp) _).bind
  apply Tracks.start (fun _ => hrefuses.bind) (fun _ => hrefuses.bind)
  intro start
  apply Tracks.bind (Tracks.enclosed semicolon_separates hlevel.keeps.type
    (fun _ => hlevel.type.inner.expecting))
  intro form
  apply Tracks.spanFrom (Or.inl rfl)
  intro span
  cases form with
  | unit => exact Tracks.give rfl
  | group type => exact Tracks.give rfl
  | sequence separator elements =>
      exact Tracks.give (by simp [TypeExpr.relabel])

theorem subtype_tracks (hlevel : level.Tracks K) (hbegins : forall c, pre c -> p.Begins c) :
    K.Tracks lax S ⟨p, S, k⟩ pre (subtype level) (subtype level)
      (fun _ => ⟨.settled, S, k⟩) (TypeExpr.relabel K.relabelling) := by
  apply Tracks.kind (subtype_refuses level) (subtype_refuses level)
  intro kind
  split
  · exact Tracks.bind (Tracks.expectMark .underscore rfl) (fun _ => Tracks.give rfl)
  · exact Tracks.bind (Tracks.lowercaseName _ (fun c hc => hbegins c hc.1))
      (fun _ => Tracks.give rfl)
  · exact Tracks.bind (Tracks.capitalName _) (fun _ => Tracks.give rfl)
  · exact blockType_tracks hlevel
  · exact parenthesizedType_tracks hlevel
  · exact Tracks.unexpected _

theorem begins_of_startsType {c : Cursor} (h : c.current.startsType = true) :
    Phase.settled.Begins c := by
  simp only [Token.startsType, Bool.and_eq_true, Bool.not_eq_true'] at h
  exact Or.inr (Or.inr h.2)

theorem subtypes_tracks (hlevel : level.Tracks K) :
    K.Tracks lax S ⟨.settled, S, k⟩ pre (subtypes level) (subtypes level)
      (fun _ => ⟨.settled, S, k⟩) (List.map (TypeExpr.relabel K.relabelling)) :=
  Tracks.repeatWhile (subtype_reads hlevel.keeps).readsIf (subtype_reads hlevel.keeps).readsIf
    (fun _ hend => not_startsType_of_end hend) (fun htwin => steady_startsType.eq (alike htwin))
    (subtype_tracks hlevel (fun _ => begins_of_startsType))

/-!
## Type elements
-/

theorem functionOrNamedType_refuses (level : Level) : Refuses (functionOrNamedType level) :=
  fun c hc => (subtype_refuses level).bind c hc

theorem bareName?_relabel (ρ : Relabelling) (type : TypeExpr) :
    bareName? (type.relabel ρ) = (bareName? type).map (Lexeme.relabel ρ) := by
  cases type <;> rfl

theorem functionOrNamedType_tracks (hlevel : level.Tracks K) :
    K.Tracks false S ⟨.expecting, S, k⟩ pre (functionOrNamedType level)
      (functionOrNamedType level) (fun _ => ⟨.settled, S, k⟩)
      (TypeExpr.relabel K.relabelling) := by
  apply Tracks.start
  · exact fun _ c hc => (subtype_refuses level).bind c hc
  · exact fun _ c hc => (subtype_refuses level).bind c hc
  intro start
  apply Tracks.isAt (by simp) (by simp)
  intro bare
  apply Tracks.bind (subtype_tracks hlevel (fun _ _ => Or.inl rfl))
  intro first
  apply Tracks.bind (subtypes_tracks hlevel)
  intro rest
  apply Tracks.isAt (by simp) (by simp)
  intro arrow
  split
  · rename_i harrow
    apply Tracks.bind (Tracks.advanceMark .arrow rfl (fun c hc => hc.2.trans harrow))
    intro _
    apply Tracks.bind Tracks.skipJoined
    intro _
    apply Tracks.bind hlevel.type.expecting
    intro output
    apply Tracks.spanFrom (Or.inl rfl)
    intro span
    exact Tracks.give (by simp [TypeExpr.relabel])
  · rw [List.isEmpty_map]
    split
    · exact Tracks.give rfl
    · rw [bareName?_relabel]
      cases bare with
      | false => exact Tracks.unexpected _
      | true =>
          cases bareName? first with
          | none => exact Tracks.unexpected _
          | some name =>
              apply Tracks.spanFrom (Or.inl rfl)
              intro span
              exact Tracks.give (by simp [TypeExpr.relabel])

/-!
## Constraints and signatures
-/

theorem constraintBody_tracks (hlevel : level.Tracks K) :
    K.Tracks false (.round :: S) ⟨.joined, .round :: S, k⟩ pre (constraintBody level)
      (constraintBody level) (fun _ => ⟨.settled, .round :: S, k⟩)
      (Constraint.relabel K.relabelling) := by
  apply Tracks.start
  · exact fun _ => Refuses.kind (refuses_unexpected _) (refuses_unexpected _)
  · exact fun _ => Refuses.kind (refuses_unexpected _) (refuses_unexpected _)
  intro start
  apply Tracks.kind
  · exact Refuses.kind (refuses_unexpected _) (refuses_unexpected _)
  · exact Refuses.kind (refuses_unexpected _) (refuses_unexpected _)
  intro kind
  split
  · apply Tracks.bind (Tracks.advanceReserved .inferWord (fun c hc => hc.2))
    intro _
    apply Tracks.bind (Tracks.lowercaseName _ (fun _ _ => Or.inl rfl))
    intro parameter
    apply Tracks.spanFrom (Or.inl rfl)
    intro span
    exact Tracks.give rfl
  · apply Tracks.bind (Tracks.lowercaseName _ (fun _ _ => Or.inr (Or.inl rfl)))
    intro parameter
    apply Tracks.bind (Tracks.expectMark .colon rfl)
    intro _
    apply Tracks.bind Tracks.skipJoined
    intro _
    apply Tracks.bind hlevel.type.expecting
    intro value
    apply Tracks.spanFrom (Or.inl rfl)
    intro span
    exact Tracks.give rfl
  · apply Tracks.bind (Tracks.capitalName _)
    intro trait
    apply Tracks.bind (Tracks.inside (subtype_tracks hlevel (fun _ _ => Or.inl rfl)))
    intro first
    apply Tracks.bind (subtypes_tracks hlevel)
    intro rest
    apply Tracks.spanFrom (Or.inl rfl)
    intro span
    exact Tracks.give (by simp [Constraint.relabel])
  · exact Tracks.unexpected _

theorem constraint_tracks (hlevel : level.Tracks K) :
    K.Tracks lax S ⟨p, S, k⟩ pre (constraint level) (constraint level)
      (fun _ => ⟨.settled, S, k⟩) (Constraint.relabel K.relabelling) := by
  apply Tracks.bind (Tracks.opening .openParen rfl)
  intro _
  apply Tracks.bind (constraintBody_tracks hlevel).inner
  intro found
  apply Tracks.bind (Tracks.closing .closeParen rfl)
  intro _
  exact Tracks.give rfl

theorem whereClause_tracks (hlevel : level.Tracks K) :
    K.Tracks lax S ⟨.settled, S, k⟩ pre (whereClause level) (whereClause level)
      (fun _ => ⟨.settled, S, k⟩) (Option.map (WhereClause.relabel K.relabelling)) := by
  apply Tracks.isAt (by simp) (by simp)
  intro present
  split
  · rename_i hpresent
    refine Tracks.bind (Tracks.advanceReserved .whereWord ?_) ?_
    · rintro c ⟨_, hc⟩
      simpa [Cursor.isAt, hpresent] using hc
    intro opening
    apply Tracks.bind (constraint_tracks hlevel)
    intro first
    apply Tracks.bind (Tracks.repeatWhile (constraint_reads hlevel.keeps).readsIf
      (constraint_reads hlevel.keeps).readsIf (fun _ hend => not_isAt_of_end (by simp) hend)
      (fun htwin => (steady_isAt (by simp) (by simp)).eq (alike htwin))
      (constraint_tracks hlevel))
    intro rest
    apply Tracks.spanFrom (Or.inl rfl)
    intro span
    exact Tracks.give (by simp [WhereClause.relabel])
  · exact Tracks.give rfl

theorem signature_tracks (hlevel : level.Tracks K) :
    K.Tracks lax S ⟨.expecting, S, k⟩ pre (signature level) (signature level)
      (fun _ => ⟨.settled, S, k⟩) (Signature.relabel K.relabelling) := by
  apply Tracks.start (fun _ => hlevel.type_refuses.bind) (fun _ => hlevel.type_refuses.bind)
  intro start
  apply Tracks.bind hlevel.type.loosen
  intro type
  apply Tracks.bind (whereClause_tracks hlevel)
  intro clause
  apply Tracks.spanFrom (Or.inl rfl)
  intro span
  exact Tracks.give rfl

/-- The parameters of a type definition may be any names, so the phase between them is
not known. -/
theorem typeFunction_tracks :
    K.Tracks false S ⟨.joined, S, k⟩ pre typeFunction typeFunction
      (fun _ => ⟨.joined, S, k⟩) (TypeFunction.relabel K.relabelling) := by
  have hrefuses : Refuses typeParameterName := (refuses_expectAs (by simp) (by simp) _).bind
  apply Tracks.start (fun _ => hrefuses.bind) (fun _ => hrefuses.bind)
  intro start
  apply Tracks.bind (Tracks.anyName _)
  intro first
  apply Tracks.bind (Tracks.repeatWhile Account.Reads.typeParameterName.readsIf
    Account.Reads.typeParameterName.readsIf (fun _ hend => not_isAt_of_end (by simp) hend)
    (fun htwin => (steady_isAt (by simp) (by simp)).eq (alike htwin)) (Tracks.anyName _))
  intro rest
  apply Tracks.bind (Tracks.expectMark .fatArrow rfl)
  intro _
  apply Tracks.spanFrom (Or.inr rfl)
  intro span
  apply Tracks.bind Tracks.skipJoined
  intro _
  exact Tracks.give (by simp [TypeFunction.relabel])

end Grammar
end Linewise
