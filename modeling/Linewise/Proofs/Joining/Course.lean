import Linewise.Proofs.Parallel.Statement

/-!
# The course of a statement

The phase and the open brackets behind the tokens of a statement can be told from
the tokens alone: a line break outside of brackets does not stand behind an operand.
A statement that is read without a diagnostic follows this course and ends behind an
operand, so its brackets are matched and its last token is no joint.
-/

namespace Linewise

/-!
## Line breaks in front
-/

namespace Cursor

theorem afterLineBreaks?_breaks {breaks rest : List Token}
    (hbreaks : forall t, t ∈ breaks -> t.isLineBreak = true)
    (hrest : forall t, rest.head? = some t -> isTrivia t = false) :
    (afterLineBreaks? (breaks ++ rest)).getD (breaks ++ rest) = rest := by
  induction breaks with
  | nil =>
      cases rest with
      | nil => rfl
      | cons token rest =>
          have htrivia := hrest token rfl
          rw [isTrivia, Bool.or_eq_false_iff] at htrivia
          simp [afterLineBreaks?, htrivia.1, htrivia.2]
  | cons token breaks ih =>
      have hbreak := hbreaks token (by simp)
      have hcomment : token.isComment = false := by
        have hkind : token.kind = .lineBreak := by simpa [Token.isLineBreak] using hbreak
        simp [Token.isComment, hkind]
      have hih := ih (fun t ht => hbreaks t (by simp [ht]))
      simpa [afterLineBreaks?, hcomment, hbreak] using hih

variable {c : Cursor} {breaks rest : List Token}

theorem skipLineBreaks_breaks (hahead : c.ahead = breaks ++ rest)
    (hbreaks : forall t, t ∈ breaks -> t.isLineBreak = true)
    (hrest : forall t, rest.head? = some t -> isTrivia t = false) :
    c.skipLineBreaks = { c with ahead := rest } := by
  unfold skipLineBreaks
  rw [hahead, afterLineBreaks?_breaks hbreaks hrest]

theorem isTrivia_of_isLineBreak {t : Token} (h : t.isLineBreak = true) : isTrivia t = true := by
  simp [isTrivia, h]

theorem skipTrivia_breaks (hahead : c.ahead = breaks ++ rest)
    (hbreaks : forall t, t ∈ breaks -> t.isLineBreak = true)
    (hrest : forall t, rest.head? = some t -> isTrivia t = false) :
    c.skipTrivia = { c with ahead := rest } := by
  have hdrop : rest.dropWhile isTrivia = rest := by
    cases rest with
    | nil => rfl
    | cons token rest => exact List.dropWhile_cons_of_neg (by simp [hrest token rfl])
  unfold skipTrivia
  rw [hahead, List.dropWhile_append_of_pos (fun t ht => isTrivia_of_isLineBreak (hbreaks t ht)),
    hdrop]

theorem leadingComments_breaks (hahead : c.ahead = breaks ++ rest)
    (hbreaks : forall t, t ∈ breaks -> t.isLineBreak = true)
    (hrest : forall t, rest.head? = some t -> isTrivia t = false) : c.leadingComments = [] := by
  have htake : rest.takeWhile isTrivia = [] := by
    cases rest with
    | nil => rfl
    | cons token rest => exact List.takeWhile_cons_of_neg (by simp [hrest token rfl])
  have hcomments : breaks.filter Token.isComment = [] := by
    rw [List.filter_eq_nil_iff]
    intro t ht
    have hkind : t.kind = .lineBreak := by simpa [Token.isLineBreak] using hbreaks t ht
    simp [Token.isComment, hkind]
  unfold leadingComments
  rw [hahead, List.takeWhile_append_of_pos (fun t ht => isTrivia_of_isLineBreak (hbreaks t ht)),
    htake, List.append_nil, hcomments]
  rfl

end Cursor

theorem Token.split_breaks {tokens : List Token}
    (hplain : forall t, t ∈ tokens -> t.isComment = false) :
    exists breaks rest, tokens = breaks ++ rest ∧
      (forall t, t ∈ breaks -> t.isLineBreak = true) ∧
      (forall t, rest.head? = some t -> Cursor.isTrivia t = false) := by
  refine ⟨tokens.takeWhile Token.isLineBreak, tokens.dropWhile Token.isLineBreak,
    (List.takeWhile_append_dropWhile).symm,
    fun t ht => List.all_eq_true.mp List.all_takeWhile t ht, ?_⟩
  intro t ht
  have hmem : t ∈ tokens :=
    (List.dropWhile_sublist Token.isLineBreak).subset (List.mem_of_mem_head? ht)
  have hbreak : t.isLineBreak = false := by
    have hhead := List.head?_dropWhile_not Token.isLineBreak tokens
    rw [ht] at hhead
    simpa using hhead
  simp [Cursor.isTrivia, hplain t hmem, hbreak]

/-!
## Courses
-/

structure Course where
  phase : Phase
  stack : List Bracket
deriving DecidableEq

namespace Course

def start : Course := ⟨.expecting, []⟩

def step (course : Course) (token : Token) : Option Course :=
  if token.isLineBreak then
    if course.stack = [] ∧ course.phase = .settled then none else some course
  else
    (Bracket.step course.stack token.kind).map (fun stack => ⟨course.phase.behind token, stack⟩)

def run (course : Course) : List Token -> Option Course
  | [] => some course
  | token :: rest => (course.step token).bind (fun next => next.run rest)

@[simp] theorem run_nil (course : Course) : course.run [] = some course := rfl

theorem run_append (course : Course) (first second : List Token) :
    course.run (first ++ second) = (course.run first).bind (fun next => next.run second) := by
  induction first generalizing course with
  | nil => rfl
  | cons token rest ih =>
      rw [List.cons_append, run, run]
      cases course.step token with
      | none => rfl
      | some next => exact ih next

theorem run_snoc {course next last : Course} {tokens : List Token} {token : Token}
    (h : course.run tokens = some next) (hstep : next.step token = some last) :
    course.run (tokens ++ [token]) = some last := by
  rw [run_append, h, Option.bind_some, run, hstep]
  rfl

theorem step_lineBreak {course : Course} {token : Token} (hbreak : token.isLineBreak = true)
    (h : course.stack ≠ [] ∨ course.phase ≠ .settled) : course.step token = some course := by
  have hnone : ¬ (course.stack = [] ∧ course.phase = .settled) := by
    rintro ⟨hstack, hphase⟩
    rcases h with hne | hne
    · exact hne hstack
    · exact hne hphase
  rw [step, if_pos hbreak, if_neg hnone]

theorem run_breaks {course : Course} {breaks : List Token}
    (hbreaks : forall t, t ∈ breaks -> t.isLineBreak = true)
    (h : course.stack ≠ [] ∨ course.phase ≠ .settled) : course.run breaks = some course := by
  induction breaks with
  | nil => rfl
  | cons token rest ih =>
      rw [run, step_lineBreak (hbreaks token (by simp)) h]
      exact ih (fun t ht => hbreaks t (by simp [ht]))

theorem unwind_of_run {course last : Course} {tokens : List Token}
    (h : course.run tokens = some last) :
    Bracket.unwind course.stack (tokens.map Token.kind) = some last.stack := by
  induction tokens generalizing course with
  | nil =>
      cases h
      rfl
  | cons token rest ih =>
      rcases Option.bind_eq_some_iff.mp h with ⟨next, hstep, hrest⟩
      rw [List.map_cons, Bracket.unwind_cons]
      unfold step at hstep
      split at hstep
      · rename_i hbreak
        have hkind : token.kind = .lineBreak := by simpa [Token.isLineBreak] using hbreak
        split at hstep
        · cases hstep
        · cases hstep
          rw [hkind, Bracket.step_plain rfl]
          exact ih hrest
      · rcases Option.map_eq_some_iff.mp hstep with ⟨stack, hstack, hnext⟩
        rw [hstack]
        rw [← hnext] at hrest
        exact ih hrest

theorem settled_of_run {course : Course} {tokens : List Token} {token : Token}
    (h : course.run (tokens ++ [token]) = some ⟨.settled, []⟩) :
    Phase.ofKind token.kind = .settled := by
  rw [run_append] at h
  rcases Option.bind_eq_some_iff.mp h with ⟨next, _, hlast⟩
  rcases Option.bind_eq_some_iff.mp hlast with ⟨last, hstep, hend⟩
  cases hend
  unfold step at hstep
  split at hstep
  · split at hstep
    · cases hstep
    · rename_i hopen
      cases hstep
      exact absurd ⟨rfl, rfl⟩ hopen
  · rcases Option.map_eq_some_iff.mp hstep with ⟨stack, _, hnext⟩
    rw [Course.mk.injEq] at hnext
    have hphase := hnext.1
    unfold Phase.behind at hphase
    split at hphase
    · rename_i hword
      have hkind : token.kind = .lowercaseName := by
        simp only [Token.isOperatorWord, Bool.and_eq_true, beq_iff_eq] at hword
        exact hword.1
      rw [hkind]
      rfl
    · exact hphase

end Course

/-- The tokens `ahead` are those of `tokens` that are left where a reading stands at
the frame, if it follows the course. -/
def Follows (tokens ahead : List Token) (σ : Frame) : Prop :=
  exists before phase, tokens = before ++ ahead ∧
    Course.start.run before = some ⟨phase, σ.stack⟩ ∧ (σ.stack = [] -> phase.Refines σ.phase)

namespace Phase

theorem Refines.trans {p q r : Phase} (hpq : p.Refines q) (hqr : q.Refines r) : p.Refines r := by
  rcases hqr with rfl | rfl | ⟨rfl, hq⟩
  · exact hpq
  · exact Or.inr (Or.inl rfl)
  · rcases hpq with rfl | rfl | ⟨rfl, _⟩
    · exact Or.inr (Or.inr ⟨rfl, hq⟩)
    · rcases hq with hq | hq <;> cases hq
    · rcases hq with hq | hq <;> cases hq

theorem Refines.behind {p q : Phase} (h : p.Refines q) (token : Token) :
    (p.behind token).Refines (q.behind token) := by
  unfold Phase.behind
  split
  · rcases h with rfl | rfl | ⟨rfl, rfl | rfl⟩
    · exact Refines.refl _
    · exact Or.inr (Or.inl rfl)
    · exact Refines.refl _
    · exact Refines.refl _
  · exact Refines.refl _

theorem behind_of_not_plain {token : Token} (h : Bracket.plain token.kind = false)
    (p q : Phase) : p.behind token = q.behind token := by
  have hname : token.kind ≠ .lowercaseName := by
    intro hkind
    rw [hkind] at h
    cases h
  rw [behind_of_kind rfl hname, behind_of_kind rfl hname]

end Phase

namespace Follows

variable {tokens ahead : List Token} {σ τ : Frame} {p : Phase} {S S' : List Bracket} {k k' : Bool}

theorem begin (tokens : List Token) (k : Bool) : Follows tokens tokens ⟨.expecting, [], k⟩ :=
  ⟨[], .expecting, rfl, rfl, fun _ => Phase.Refines.refl _⟩

theorem refine (h : Follows tokens ahead σ) (hσ : σ.Refines τ) : Follows tokens ahead τ := by
  rcases h with ⟨before, phase, hbefore, hrun, hphase⟩
  refine ⟨before, phase, hbefore, by rw [hrun, hσ.stack], ?_⟩
  intro hnone
  rcases hσ.phase with hne | hrefines
  · exact absurd hnone hne
  · exact (hphase (hσ.stack.trans hnone)).trans hrefines

theorem read {token : Token} (h : Follows tokens (token :: ahead) ⟨p, S, k⟩)
    (hbreak : token.isLineBreak = false) (hstep : Bracket.step S token.kind = some S') :
    Follows tokens ahead ⟨p.behind token, S', k'⟩ := by
  rcases h with ⟨before, phase, hbefore, hrun, hphase⟩
  have hnext : Course.step ⟨phase, S⟩ token = some ⟨phase.behind token, S'⟩ := by
    simp [Course.step, hbreak, hstep]
  refine ⟨before ++ [token], phase.behind token, by simp [hbefore], Course.run_snoc hrun hnext, ?_⟩
  intro hnone
  have hnone : S' = [] := hnone
  cases hplain : Bracket.plain token.kind with
  | true =>
      rw [Bracket.step_plain hplain, hnone, Option.some.injEq] at hstep
      exact (hphase hstep).behind token
  | false => exact Or.inl (Phase.behind_of_not_plain hplain phase p)

theorem breaks {breaks : List Token} (h : Follows tokens (breaks ++ ahead) ⟨p, S, k⟩)
    (hbreaks : forall t, t ∈ breaks -> t.isLineBreak = true)
    (hp : S ≠ [] ∨ p = .joined ∨ p = .worded) : Follows tokens ahead ⟨p, S, k'⟩ := by
  rcases h with ⟨before, phase, hbefore, hrun, hphase⟩
  have hopen : S ≠ [] ∨ phase ≠ .settled := by
    by_cases hnone : S = []
    · right
      intro hsettled
      rcases hp with hne | hjoined | hworded
      · exact hne hnone
      · have hrefines := hphase hnone
        rw [hsettled, hjoined] at hrefines
        rcases hrefines with h | h | ⟨h, _⟩ <;> cases h
      · have hrefines := hphase hnone
        rw [hsettled, hworded] at hrefines
        rcases hrefines with h | h | ⟨h, _⟩ <;> cases h
    · exact Or.inl hnone
  refine ⟨before ++ breaks, phase, by rw [hbefore, List.append_assoc], ?_, hphase⟩
  rw [Course.run_append, hrun]
  exact Course.run_breaks hbreaks hopen

end Follows

/-!
## Readings that follow their course
-/

namespace Cursor

theorem significant_of_plain {c : Cursor} (hplain : forall t, t ∈ c.ahead -> t.isComment = false) :
    c.significant = c.ahead := by
  unfold significant
  cases hahead : c.ahead with
  | nil => rfl
  | cons token rest =>
      exact List.dropWhile_cons_of_neg (by simp [hplain token (by simp [hahead])])

theorem advance_of_plain {c : Cursor} (hplain : forall t, t ∈ c.ahead -> t.isComment = false)
    (hfinal : c.final.kind = .endOfInput) (hend : c.kind ≠ .endOfInput) :
    exists rest, c.ahead = c.current :: rest ∧
      c.advance = { c with ahead := rest, previous := spanAfter c.previous c.current } := by
  rcases significant_of_kind_ne hfinal hend with ⟨rest, hrest⟩
  exact ⟨rest, (significant_of_plain hplain).symm.trans hrest, advance_eq hrest hend⟩

theorem advance_errors (c : Cursor) (errors : List Diagnostic) :
    ({ c with errors := errors } : Cursor).advance = { c.advance with errors := errors } := by
  unfold advance significant
  cases c.ahead.dropWhile Token.isComment with
  | nil => rfl
  | cons token rest =>
      dsimp only
      split <;> rfl

theorem skipStatement_errors (terminator : Kind) (c : Cursor) (errors : List Diagnostic) :
    ({ c with errors := errors } : Cursor).skipStatement terminator =
      { c.skipStatement terminator with errors := errors } := by
  unfold skipStatement
  dsimp only
  cases afterStatement? terminator 0 c.previous c.ahead with
  | none => rfl
  | some found => rfl

structure Traced (tokens : List Token) (σ : Frame) (c d : Cursor) : Prop where
  same : exists errors, d = { c with errors := errors }
  fits : plainRecovery.Fits c
  plain : forall t, t ∈ c.ahead -> t.isComment = false
  clean : σ.clean = true -> c.errors = []
  follows : c.errors = [] -> Follows tokens c.ahead σ

namespace Traced

variable {tokens : List Token} {σ τ : Frame} {c d : Cursor} {p : Phase} {S S' : List Bracket}
  {k : Bool}

theorem fits' (h : Traced tokens σ c d) : plainRecovery.Fits d := by
  rcases h.same with ⟨errors, rfl⟩
  exact ⟨h.fits.tokens, h.fits.ends⟩

theorem current (h : Traced tokens σ c d) : d.current = c.current := by
  rcases h.same with ⟨errors, rfl⟩
  rfl

theorem refine (h : Traced tokens σ c d) (hσ : σ.Refines τ) : Traced tokens τ c d where
  same := h.same
  fits := h.fits
  plain := h.plain
  clean hclean := h.clean (hσ.clean hclean)
  follows hnone := (h.follows hnone).refine hσ

theorem deepen (h : Traced tokens σ c d) (depth : Nat) :
    Traced tokens σ { c with depth := depth } { d with depth := depth } where
  same := by
    rcases h.same with ⟨errors, rfl⟩
    exact ⟨errors, rfl⟩
  fits := ⟨h.fits.tokens, h.fits.ends⟩
  plain := h.plain
  clean := h.clean
  follows := h.follows

theorem read (h : Traced tokens ⟨p, S, k⟩ c d) (hend : c.kind ≠ .endOfInput)
    (hbreak : c.kind ≠ .lineBreak) (hstep : Bracket.step S c.kind = some S') :
    Traced tokens ⟨p.behind c.current, S', k⟩ c.advance d.advance := by
  rcases advance_of_plain h.plain h.fits.final hend with ⟨rest, hahead, hadvance⟩
  have hline : c.current.isLineBreak = false := by
    have hkind : c.current.kind ≠ .lineBreak := hbreak
    simpa [Token.isLineBreak] using hkind
  refine ⟨?_, h.fits.after (advance_passage h.fits.final hend), ?_, ?_, ?_⟩
  · rcases h.same with ⟨errors, rfl⟩
    exact ⟨errors, advance_errors c errors⟩
  · rw [hadvance]
    intro t ht
    exact h.plain t (by simp [hahead, List.mem_cons_of_mem _ ht])
  · rw [hadvance]
    exact h.clean
  · rw [hadvance]
    intro hnone
    have hfollows := h.follows hnone
    rw [hahead] at hfollows
    exact hfollows.read hline hstep

theorem moved {breaks rest : List Token} (h : Traced tokens ⟨p, S, k⟩ c d)
    (hahead : c.ahead = breaks ++ rest) (hbreaks : forall t, t ∈ breaks -> t.isLineBreak = true)
    (hp : S ≠ [] ∨ p = .joined ∨ p = .worded) :
    Traced tokens ⟨p, S, k⟩ { c with ahead := rest } { d with ahead := rest } where
  same := by
    rcases h.same with ⟨errors, rfl⟩
    exact ⟨errors, rfl⟩
  fits := ⟨fun t ht => h.fits.tokens t (by simp [hahead, ht]), h.fits.ends⟩
  plain t ht := h.plain t (by simp [hahead, show t ∈ rest from ht])
  clean := h.clean
  follows hnone := by
    have hfollows := h.follows hnone
    rw [hahead] at hfollows
    exact hfollows.breaks hbreaks hp

theorem ahead (h : Traced tokens σ c d) : d.ahead = c.ahead := by
  rcases h.same with ⟨errors, rfl⟩
  rfl

theorem skipLineBreaks (h : Traced tokens ⟨p, S, k⟩ c d)
    (hp : S ≠ [] ∨ p = .joined ∨ p = .worded) :
    Traced tokens ⟨p, S, k⟩ c.skipLineBreaks d.skipLineBreaks := by
  rcases Token.split_breaks h.plain with ⟨breaks, rest, hahead, hbreaks, hrest⟩
  rw [skipLineBreaks_breaks hahead hbreaks hrest,
    skipLineBreaks_breaks (h.ahead.trans hahead) hbreaks hrest]
  exact h.moved hahead hbreaks hp

theorem skipTrivia (h : Traced tokens ⟨p, S, k⟩ c d) (hp : S ≠ []) :
    Traced tokens ⟨p, S, k⟩ c.skipTrivia d.skipTrivia := by
  rcases Token.split_breaks h.plain with ⟨breaks, rest, hahead, hbreaks, hrest⟩
  rw [skipTrivia_breaks hahead hbreaks hrest,
    skipTrivia_breaks (h.ahead.trans hahead) hbreaks hrest]
  exact h.moved hahead hbreaks (Or.inl hp)

theorem newline (h : Traced tokens ⟨p, S, k⟩ c d) (hp : S ≠ []) (hline : c.kind = .lineBreak) :
    Traced tokens ⟨p, S, k⟩ c.advance d.advance := by
  rcases advance_of_plain h.plain h.fits.final (by simp [hline]) with ⟨rest, hahead, hadvance⟩
  have hbreak : c.current.isLineBreak = true := by
    have hkind : c.current.kind = .lineBreak := hline
    simp [Token.isLineBreak, hkind]
  have hc : c.advance = { c with ahead := rest } := by
    rw [hadvance, spanAfter, if_pos hbreak]
  have hd : d.advance = { d with ahead := rest } := by
    rcases h.same with ⟨errors, rfl⟩
    rw [advance_errors, hc]
  have hsplit : c.ahead = [c.current] ++ rest := hahead
  rw [hc, hd]
  exact h.moved hsplit (by simpa using hbreak) (Or.inl hp)

theorem giveUp {terminator : Kind} {g g' : Diagnostic} (h : Traced tokens σ c d) :
    Traced tokens ⟨.any, S, false⟩ ((c.record g).skipStatement terminator)
      ((d.record g').skipStatement terminator) := by
  rcases (c.record g).skipStatement_passage terminator h.fits.final with ⟨skipped, passage, _⟩
  have hrecorded : plainRecovery.Fits (c.record g) := ⟨h.fits.tokens, h.fits.ends⟩
  refine ⟨?_, hrecorded.after passage, ?_, by simp, ?_⟩
  · rcases h.same with ⟨errors, rfl⟩
    exact ⟨errors ++ [g'], by
      have hsame := skipStatement_errors terminator (c.record g) (errors ++ [g'])
      rw [← hsame]
      rfl⟩
  · intro t ht
    apply h.plain t
    have hahead : c.ahead = skipped ++ ((c.record g).skipStatement terminator).ahead :=
      passage.ahead
    simp [hahead, ht]
  · intro hnone
    rw [passage.errors] at hnone
    simp [record] at hnone

end Traced
end Cursor

def Correspondence.traced (tokens : List Token) : Correspondence where
  relabelling := .identity
  Twin := Cursor.Traced tokens
  Said _ _ := True
  Whole := False
  Lossy := False
  lossy := False.elim
  fits h := by
    refine ⟨h.fits, h.fits', ?_⟩
    rcases h.same with ⟨errors, rfl⟩
    rfl
  deepen depth h := h.deepen depth
  refine hσ h := h.refine hσ
  current h := Or.inl h.current
  said _ _ := trivial
  saidAll _ _ _ := trivial
  previous h _ := by
    rcases h.same with ⟨errors, rfl⟩
    rfl
  arrow h := by
    rcases h.same with ⟨errors, rfl⟩
    rfl
  read h _ hend hbreak hstep := h.read hend hbreak hstep
  skip h := h.skipLineBreaks (Or.inr (Or.inl rfl))
  stray h := Or.inl ((h.skipLineBreaks (Or.inr (Or.inr rfl))).refine
    ⟨rfl, Or.inr (Or.inr (Or.inr ⟨rfl, Or.inr rfl⟩)), id⟩)
  trivia := by
    rintro p S k c d (hwhole | hstack) h
    · exact hwhole.elim
    · refine ⟨?_, (h.skipTrivia hstack).refine ⟨rfl, Or.inl hstack, id⟩⟩
      rcases h.same with ⟨errors, rfl⟩
      exact (Relabelling.comments_identity _).symm
  newline := by
    rintro p S k c d (hwhole | hstack) h hline
    · exact hwhole.elim
    · have hnewline := h.newline hstack hline
      refine ⟨?_, (hnewline.skipTrivia hstack).refine ⟨rfl, Or.inl hstack, id⟩⟩
      rcases hnewline.same with ⟨errors, hsame⟩
      rw [hsame]
      exact (Relabelling.comments_identity _).symm
  recover := by
    intro terminator p S k σ c d c' d' read noted read' noted' g g' _ _ _ _ htwin _ _ _ _
    refine ⟨htwin.giveUp, ?_⟩
    rcases htwin.same with ⟨errors, rfl⟩
    have hsame := Cursor.skipStatement_errors terminator (c'.record g) (errors ++ [g'])
    show ((({ c'.record g with errors := errors ++ [g'] } : Cursor)).skipStatement
      terminator).previous = _
    rw [hsame]
    rfl

namespace Grammar

theorem settled_of_statement {comments : List Lexeme} {c d : Cursor} {found : Statement}
    (hc : plainRecovery.Fits c) (hplain : forall t, t ∈ c.ahead -> t.isComment = false)
    (hclean : c.errors = []) (hmargin : ¬ c.AtMargin)
    (hfound : Level.outermost.statement comments c = .ok found d) (hnone : d.errors = []) :
    exists read, c.ahead = read ++ d.ahead ∧
      Course.start.run read = some ⟨.settled, []⟩ := by
  have htracks : (Correspondence.traced c.ahead).Tracks true [] ⟨.expecting, [], true⟩
      (fun e => ¬ e.AtMargin) (Level.outermost.statement comments)
      (Level.outermost.statement (Relabelling.identity.comments comments))
      (fun _ => ⟨.settled, [], false⟩) (Statement.relabel .identity) :=
    (tracks_ofRoom _ _).statement comments (by simp) (fun _ h => h)
  have htwin : Cursor.Traced c.ahead ⟨.expecting, [], true⟩ c c :=
    ⟨⟨c.errors, rfl⟩, hc, hplain, fun _ => hclean, fun _ => Follows.begin c.ahead true⟩
  have hreplies := htracks c c htwin hmargin
  rw [hfound] at hreplies
  generalize Level.outermost.statement _ c = reply at hreplies
  cases hreplies with
  | lost hlax hlossy => exact hlossy.elim
  | ok twin =>
      have htraced : Cursor.Traced c.ahead ⟨.settled, [], false⟩ d _ := twin
      rcases htraced.follows hnone with ⟨read, phase, hahead, hrun, hphase⟩
      have hsettled : phase = .settled := by
        rcases hphase rfl with hsame | hany | ⟨hexpecting, _⟩
        · exact hsame
        · cases hany
        · cases hexpecting
      rw [hsettled] at hrun
      exact ⟨read, hahead, hrun⟩

end Grammar

end Linewise
