import Linewise.Proofs.Parallel.Statement

/-!
# Where diagnostics stand

A diagnostic is reported at the current token.  So if all tokens stand at certain
places, all that is noted is noted there.  This holds of one reading; it is the
reading in parallel with itself.
-/

namespace Linewise

namespace Cursor

structure Placed (Place : Span -> Prop) (c : Cursor) : Prop where
  fits : plainRecovery.Fits c
  ahead : forall t, t ∈ c.ahead -> Place t.span
  final : Place c.final.span
  errors : forall g, g ∈ c.errors -> Place g.span

namespace Placed

variable {Place : Span -> Prop} {c d : Cursor}

theorem current (h : Placed Place c) : Place c.current.span := by
  cases hs : c.significant with
  | nil =>
      rw [Cursor.current_eq_final hs]
      exact h.final
  | cons token rest =>
      rw [Cursor.current_eq hs]
      exact h.ahead token (Cursor.mem_ahead_of_significant hs)

theorem passed {read : List Token} (h : Placed Place c) (passage : c.Passage read [] d) :
    Placed Place d where
  fits := h.fits.after passage
  ahead := by
    intro t ht
    apply h.ahead t
    rw [passage.ahead]
    exact List.mem_append_right read ht
  final := by
    rw [passage.final]
    exact h.final
  errors := by
    rw [passage.errors, List.append_nil]
    exact h.errors

theorem advance (h : Placed Place c) (hend : c.kind ≠ .endOfInput) : Placed Place c.advance :=
  h.passed (Cursor.advance_passage h.fits.final hend)

theorem skipLineBreaks (h : Placed Place c) : Placed Place c.skipLineBreaks := by
  rcases c.skipLineBreaks_passage with ⟨read, passage, _⟩
  exact h.passed passage

theorem giveUp {g : Diagnostic} (h : Placed Place c) (hg : Place g.span) (terminator : Kind) :
    Placed Place ((c.record g).skipStatement terminator) := by
  rcases (c.record g).skipStatement_passage terminator h.fits.final with ⟨skipped, hskip, _⟩
  have hrecorded : Placed Place (c.record g) := by
    refine ⟨⟨h.fits.tokens, h.fits.ends⟩, h.ahead, h.final, ?_⟩
    intro noted hnoted
    rcases List.mem_append.mp hnoted with hnoted | hnoted
    · exact h.errors noted hnoted
    · rw [List.mem_singleton.mp hnoted]
      exact hg
  exact hrecorded.passed hskip

end Placed
end Cursor

def Correspondence.placed (Place : Span -> Prop) : Correspondence where
  relabelling := .identity
  Twin _ c d := d = c ∧ c.Placed Place
  Said g h := h = g ∧ Place g.span
  Whole := True
  Lossy := False
  lossy := never_lossy
  fits := by
    rintro σ c d ⟨rfl, h⟩
    exact ⟨h.fits, h.fits, rfl⟩
  deepen := by
    rintro σ c d depth ⟨rfl, h⟩
    exact ⟨rfl, ⟨h.fits.tokens, h.fits.ends⟩, h.ahead, h.final, h.errors⟩
  refine _ h := h
  current := by
    rintro σ c d ⟨rfl, _⟩
    exact Or.inl rfl
  said := by
    intro σ c d g h hspan
    rw [hspan]
    exact ⟨rfl, h.2.current⟩
  saidAll h := absurd trivial h
  previous := by
    rintro σ c d ⟨rfl, _⟩ _
    rfl
  arrow := by
    rintro σ c d ⟨rfl, _⟩
    rfl
  read := by
    rintro p S S' k c d ⟨rfl, h⟩ _ hend _ _
    exact ⟨rfl, h.advance hend⟩
  skip := by
    rintro S k c d ⟨rfl, h⟩
    exact ⟨rfl, h.skipLineBreaks⟩
  stray := by
    rintro S k c d ⟨rfl, h⟩
    exact Or.inl ⟨rfl, h.skipLineBreaks⟩
  trivia := by
    rintro p S k c d _ ⟨rfl, h⟩
    exact ⟨(Relabelling.comments_identity _).symm, rfl, h.passed d.skipTrivia_passage⟩
  newline := by
    rintro p S k c d _ ⟨rfl, h⟩ hline
    exact ⟨(Relabelling.comments_identity _).symm, rfl,
      (h.advance (by simp [hline])).passed d.advance.skipTrivia_passage⟩
  recover := by
    rintro terminator p S k σ c d c' d' read noted read' noted' g h _ _ _ _ ⟨rfl, htwin⟩ _ _ _
      ⟨rfl, hg⟩
    exact ⟨⟨rfl, htwin.giveUp hg terminator⟩, rfl⟩

namespace Grammar

theorem statements_placed {Place : Span -> Prop} {c : Cursor} (h : c.Placed Place)
    {found : List Statement} {c' : Cursor}
    (hfound : statements Level.outermost .endOfInput c = .ok found c') : c'.Placed Place := by
  have htracks : (Correspondence.placed Place).Tracks false [] ⟨.expecting, [], false⟩
      (fun _ => True) (statements Level.outermost .endOfInput)
      (statements Level.outermost .endOfInput) (fun _ => ⟨.any, [], false⟩)
      (List.map (Statement.relabel .identity)) :=
    statements_tracks (tracks_ofRoom _ _) (Or.inl trivial) (Or.inr ⟨rfl, rfl⟩)
  have hreplies := htracks c c ⟨rfl, h⟩ trivial
  rw [hfound] at hreplies
  rcases hreplies.exists_ok with ⟨_, _, htwin⟩
  exact htwin.2

end Grammar

end Linewise
