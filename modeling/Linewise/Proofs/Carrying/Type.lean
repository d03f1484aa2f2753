import Linewise.Proofs.Carrying.Combinator
import Linewise.Proofs.Parallel.Type

/-!
# Types carried over

The rules of the type grammar carry a reading over.  They note no diagnostics, so they do
so sharply: where one reading fails, the other does.
-/

namespace Linewise

open Linewise.Pairing

/-- The four rules of a level carry a reading over, with `k` levels open around it.  Types
and patterns are tried, so they have to be carried over sharply.  Statements are read
only where the texts end alike, and inside of brackets. -/
structure Level.Carries (P : Pairing) (k : Nat) (level : Level) : Prop where
  keeps : level.Keeps plainRecovery.toAccount
  spans : Grammar.LevelSpans level
  braced : plainRecovery.Reads 1 (Grammar.bracedExpression level) Expression.script
  type_balks : Balks level.type
  pattern_balks : Balks level.pattern
  expression_balks : forall least, Balks (level.expression least)
  type : forall {sharp S pre},
    P.Carries sharp ⟨false, S, k⟩ pre level.type (fun _ => ⟨false, S, k⟩)
  pattern : forall {sharp S pre},
    P.Carries sharp ⟨false, S, k⟩ pre level.pattern (fun _ => ⟨false, S, k⟩)
  expression : forall {S pre} (least : Nat),
    P.Carries false ⟨false, S, k⟩ pre (level.expression least) (fun _ => ⟨false, S, k⟩)
  statement : forall {S pre} (comments : List Lexeme), P.Whole ∨ S ≠ [] ->
    P.Carries false ⟨false, S, k⟩ pre (level.statement comments) (fun _ => ⟨false, S, k⟩)

namespace Grammar

open Linewise.Parser

variable {P : Pairing} {level : Level} {sharp : Bool} {S : List Bracket} {k : Nat}
  {pre : Cursor -> Prop}

/-!
## Subtypes
-/

theorem subtype_balks (level : Level) : Balks (subtype level) :=
  Balks.kind (balks_unexpected _) (balks_unexpected _)

theorem blockType_carries (hlevel : level.Carries P k) :
    P.Carries sharp ⟨false, S, k⟩ pre (blockType level) (fun _ => ⟨false, S, k⟩) := by
  apply Carries.bind (Carries.expectAs (by simp) rfl _)
  intro opening
  apply Carries.skip
  apply Carries.bind hlevel.type
  intro output
  apply Carries.skip
  apply Carries.bind (Carries.expectAs (by simp) rfl _)
  intro _
  apply Carries.spanFrom
  intro span
  exact Carries.give

theorem parenthesizedType_carries (hlevel : level.Carries P k)
    (hpre : forall c, pre c -> c.kind = .mark .openParen) :
    P.Carries sharp ⟨false, S, k⟩ pre (parenthesizedType level) (fun _ => ⟨false, S, k⟩) := by
  apply Carries.startAt (fun c hc => not_atClose (hpre c hc) (by simp) (by simp))
  intro start
  apply Carries.bind (Carries.enclosed semicolon_separates hlevel.keeps.type hlevel.type)
  intro form
  apply Carries.spanFrom
  intro span
  cases form with
  | unit => exact Carries.give
  | group type => exact Carries.give
  | sequence separator elements => exact Carries.give

theorem subtype_carries (hlevel : level.Carries P k) :
    P.Carries sharp ⟨false, S, k⟩ pre (subtype level) (fun _ => ⟨false, S, k⟩) := by
  apply Carries.kind (subtype_balks level)
  intro kind
  split
  · exact Carries.bind (Carries.expectPlain (by simp) rfl _) (fun _ => Carries.give)
  · exact Carries.bind (Carries.lowercaseName _) (fun _ => Carries.give)
  · exact Carries.bind (Carries.capitalName _) (fun _ => Carries.give)
  · exact blockType_carries hlevel
  · exact parenthesizedType_carries hlevel (fun _ hc => hc.2)
  · exact Carries.unexpected _

theorem subtypes_carries (hlevel : level.Carries P k) :
    P.Carries sharp ⟨false, S, k⟩ pre (subtypes level) (fun _ => ⟨false, S, k⟩) :=
  Carries.repeatWhile (subtype_reads hlevel.keeps).readsIf
    (fun _ hend => not_startsType_of_end hend) (fun htwin => steady_startsType.eq htwin)
    (subtype_carries hlevel)

/-!
## Type elements
-/

theorem functionOrNamedType_balks (level : Level) : Balks (functionOrNamedType level) :=
  Balks.look (fun _ => Balks.look (fun _ => (subtype_balks level).bind))

theorem functionOrNamedType_carries (hlevel : level.Carries P k) :
    P.Carries sharp ⟨false, S, k⟩ pre (functionOrNamedType level) (fun _ => ⟨false, S, k⟩) := by
  apply Carries.start (fun _ => Balks.look (fun _ => (subtype_balks level).bind))
  intro start
  apply Carries.isAt (by simp) (by simp)
  intro bare
  apply Carries.bind (subtype_carries hlevel)
  intro first
  apply Carries.bind (subtypes_carries hlevel)
  intro rest
  apply Carries.isAt (by simp) (by simp)
  intro arrow
  split
  · rename_i harrow
    apply Carries.bind (Carries.advanceAt (.mark .arrow) (by simp)
      (Bracket.step_plain rfl S) (fun c hc => hc.2.trans harrow))
    intro _
    apply Carries.skip
    apply Carries.bind hlevel.type
    intro output
    apply Carries.spanFrom
    intro span
    exact Carries.give
  · split
    · exact Carries.give
    · cases bare with
      | false => exact Carries.unexpected _
      | true =>
          cases bareName? first with
          | none => exact Carries.unexpected _
          | some name =>
              apply Carries.spanFrom
              intro span
              exact Carries.give

/-!
## Constraints and signatures
-/

theorem constraintBody_carries (hlevel : level.Carries P k) :
    P.Carries sharp ⟨false, .round :: S, k⟩ pre (constraintBody level)
      (fun _ => ⟨false, .round :: S, k⟩) := by
  have hinside : P.Whole ∨ Bracket.round :: S ≠ [] := Or.inr (by simp)
  apply Carries.startInside hinside
  intro start
  apply Carries.kindInside hinside
  intro kind
  split
  · apply Carries.bind (Carries.advanceKind (by simp) (Bracket.step_plain rfl _)
      (fun c hc => hc.2))
    intro _
    apply Carries.bind (Carries.lowercaseName _)
    intro parameter
    apply Carries.spanFrom
    intro span
    exact Carries.give
  · apply Carries.bind (Carries.lowercaseName _)
    intro parameter
    apply Carries.bind (Carries.expectPlain (by simp) rfl _)
    intro _
    apply Carries.skip
    apply Carries.bind hlevel.type
    intro value
    apply Carries.spanFrom
    intro span
    exact Carries.give
  · apply Carries.bind (Carries.capitalName _)
    intro trait
    apply Carries.bind (subtype_carries hlevel)
    intro first
    apply Carries.bind (subtypes_carries hlevel)
    intro rest
    apply Carries.spanFrom
    intro span
    exact Carries.give
  · exact Carries.unexpected _

theorem constraint_carries (hlevel : level.Carries P k) :
    P.Carries sharp ⟨false, S, k⟩ pre (constraint level) (fun _ => ⟨false, S, k⟩) := by
  apply Carries.bind (Carries.expectAs (by simp) rfl _)
  intro _
  apply Carries.bind (constraintBody_carries hlevel)
  intro found
  apply Carries.bind (Carries.expectAs (by simp) rfl _)
  intro _
  exact Carries.give

theorem whereClause_carries (hlevel : level.Carries P k) :
    P.Carries sharp ⟨false, S, k⟩ pre (whereClause level) (fun _ => ⟨false, S, k⟩) := by
  apply Carries.isAt (by simp) (by simp)
  intro present
  split
  · rename_i hpresent
    apply Carries.bind (Carries.advanceAt (.reserved .whereWord) (by simp)
      (Bracket.step_plain rfl S) (fun c hc => hc.2.trans hpresent))
    intro opening
    apply Carries.bind (constraint_carries hlevel)
    intro first
    apply Carries.bind (Carries.repeatWhile (constraint_reads hlevel.keeps).readsIf
      (fun _ hend => not_isAt_of_end (by simp) hend)
      (fun htwin => (steady_isAt (by simp) (by simp)).eq htwin) (constraint_carries hlevel))
    intro rest
    apply Carries.spanFrom
    intro span
    exact Carries.give
  · exact Carries.give

theorem signature_carries (hlevel : level.Carries P k) :
    P.Carries sharp ⟨false, S, k⟩ pre (signature level) (fun _ => ⟨false, S, k⟩) := by
  apply Carries.start (fun _ => hlevel.type_balks.bind)
  intro start
  apply Carries.bind hlevel.type
  intro type
  apply Carries.bind (whereClause_carries hlevel)
  intro clause
  apply Carries.spanFrom
  intro span
  exact Carries.give

theorem typeFunction_carries :
    P.Carries sharp ⟨false, S, k⟩ pre typeFunction (fun _ => ⟨false, S, k⟩) := by
  have hbalks : Balks typeParameterName := (balks_expectAs (by simp) (by simp) _).bind
  apply Carries.start (fun _ => hbalks.bind)
  intro start
  apply Carries.bind (Carries.lowercaseName _)
  intro first
  apply Carries.bind (Carries.repeatWhile Account.Reads.typeParameterName.readsIf
    (fun _ hend => not_isAt_of_end (by simp) hend)
    (fun htwin => (steady_isAt (by simp) (by simp)).eq htwin) (Carries.lowercaseName _))
  intro rest
  apply Carries.bind (Carries.expectPlain (by simp) rfl _)
  intro _
  apply Carries.spanFrom
  intro span
  apply Carries.skip
  exact Carries.give

end Grammar
end Linewise
