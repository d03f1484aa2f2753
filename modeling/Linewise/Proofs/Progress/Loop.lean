import Linewise.Proofs.Nesting.Confinement
import Linewise.Proofs.Progress.Rule
import Linewise.Proofs.Safety.Indexing

/-!
# Loops and levels that do not run out

A rule is built from finitely many levels, and its loops have a bound.  Neither is ever
felt: where levels are still left when too many are open, more of them make no difference,
and each round of a loop that goes on takes a token, so no loop reaches its bound.  Behind
all of this the position only moves forward.
-/

namespace Linewise

open Linewise.Parser

/-!
## Levels
-/

namespace Level

def brink : Level where
  statement := fun _ => nested (faulty .unbalanced)
  expression := fun _ => nested (faulty .unbalanced)
  pattern := nested (faulty .unbalanced)
  type := nested (faulty .unbalanced)

/-- The level inside of which `room` others are opened, and it is a fault to open one more
while more may be open. -/
def guarded : Nat -> Level
  | 0 => brink
  | room + 1 => around (guarded room)

end Level

def Excuse.roomFor (room : Nat) : Excuse where
  For := fun c fault => Excuse.unquotedText.For c fault ∨
    (fault = .unbalanced ∧ c.depth + room < maxDepth)
  unquoted := fun ht hquoted => Or.inl (Excuse.unquotedText.unquoted ht hquoted)
  behind := by
    intro c d solid fault hway hexcuse
    rcases hexcuse with hquoted | hroom
    · exact Or.inl (Excuse.unquotedText.behind hway hquoted)
    · rw [hway.balanced.1] at hroom
      exact Or.inr hroom

namespace Grammar

open Linewise.Parser.Approximates (refl after before bind map)

variable {level level' : Level}

theorem proceeds_guarded (text : List Token) (room : Nat) :
    (Level.guarded room).Proceeds (Tracing.idle text) (Excuse.roomFor room) := by
  induction room with
  | zero =>
      have hbrink : forall {α : Type} {P : α -> Prop}, Proceeds (Tracing.idle text)
          (Excuse.roomFor 0) true P (nested (faulty .unbalanced)) := by
        intro α P c _
        unfold nested
        split
        · rename_i hdepth
          exact Or.inr ⟨rfl, hdepth⟩
        · exact Cursor.Reaches.refl c
      exact ⟨hbrink, hbrink, fun _ => hbrink, fun _ _ => hbrink, Tracing.admits_idle _⟩
  | succ room ih =>
      apply proceeds_around ih ?_ (Tracing.admits_idle _)
      intro c fault hdepth hexcuse
      rcases hexcuse with hquoted | ⟨hfault, hroom⟩
      · exact Or.inl hquoted
      · refine Or.inr ⟨hfault, ?_⟩
        simp only at hroom
        omega

/-- On the brink either a fault is met or too many levels are open, and then no level may be
opened whatever is inside of it. -/
theorem approximates_brink (more : Nat) : Level.brink.Approximates (Level.ofRoom more) := by
  have hnested : forall {α : Type} (parser : Parser α),
      (nested (faulty .unbalanced)).Approximates (nested parser) :=
    fun parser => Approximates.nested (Approximates.faulty _ _)
  have hclosed : forall {α : Type},
      (nested (faulty .unbalanced) : Parser α).Approximates tooDeep := by
    intro α c
    unfold nested
    split
    · exact Or.inr ⟨_, rfl⟩
    · exact Or.inl rfl
  cases more with
  | zero => exact ⟨fun _ => hclosed, fun _ => hclosed, hclosed, hclosed⟩
  | succ more => exact ⟨fun _ => hnested _, fun _ => hnested _, hnested _, hnested _⟩

theorem approximates_around (h : level.Approximates level') :
    (Level.around level).Approximates (Level.around level') where
  statement := fun comments => Approximates.nested (statement_approximates h comments)
  expression := fun least => Approximates.nested (binaryExpression_approximates h least)
  pattern := Approximates.nested (orPattern_approximates h)
  type := Approximates.nested (functionOrNamedType_approximates h)

theorem approximates_guarded (room more : Nat) :
    (Level.guarded room).Approximates (Level.ofRoom (more + room)) := by
  induction room with
  | zero => exact approximates_brink more
  | succ room ih => exact approximates_around ih

/-- The rules only use what their level gives them. -/
theorem Rule.approximates {α : Type} {solid : Bool} {rule : Level -> Parser α}
    (hrule : Rule solid rule) (h : level.Approximates level') :
    (rule level).Approximates (rule level') := by
  induction hrule with
  | type => exact h.type
  | blockType => exact after (fun _ => after (fun _ => before h.type))
  | parenthesizedType => exact parenthesizedType_approximates h
  | subtype => exact subtype_approximates h
  | subtypes => exact subtypes_approximates h
  | functionOrNamedType => exact functionOrNamedType_approximates h
  | constraintBody => exact constraintBody_approximates h
  | constraint => exact constraint_approximates h
  | whereClause => exact whereClause_approximates h
  | signature => exact signature_approximates h
  | patternElement => exact h.pattern
  | pattern => exact pattern_approximates h
  | destructureField =>
      exact after (fun _ => after (fun _ => after (fun _ => after (fun _ =>
        before (pattern_approximates h)))))
  | destructurePattern => exact destructurePattern_approximates h
  | parenthesizedPattern => exact parenthesizedPattern_approximates h
  | subpattern => exact subpattern_approximates h
  | subpatterns => exact subpatterns_approximates h
  | patternOperand => exact patternOperand_approximates h
  | alternative start =>
      exact after (fun _ => after (fun _ => before (patternOperand_approximates h)))
  | orPattern => exact orPattern_approximates h
  | expressionElement least => exact h.expression least
  | expression => exact expression_approximates h
  | nextElement separator =>
      apply after
      intro kind
      split
      · exact after (fun _ => h.expression 0)
      · exact refl _
  | bracedExpression => exact bracedExpression_approximates h
  | parenthesizedExpression =>
      exact after (fun _ => before (Approximates.enclosed (h.expression 0)))
  | subexpression => exact subexpression_approximates h
  | inputs => exact inputs_approximates h
  | performExpression start => exact after (fun _ => before (subexpression_approximates h))
  | arm => exact arm_approximates h
  | whenExpression => exact whenExpression_approximates h
  | intrinsicExpression start =>
      exact after (fun _ => after (fun _ => before (inputs_approximates h)))
  | callExpression start => exact callExpression_approximates h start
  | operand => exact operand_approximates h
  | functionInputs =>
      exact bind (subpattern_approximates h) (fun _ => before (subpatterns_approximates h))
  | functionLiteral => exact functionLiteral_approximates h
  | rightOperand operator => exact rightOperand_approximates h operator
  | continuation start =>
      apply after
      intro token
      apply after
      intro _
      split
      · exact before (rightOperand_approximates h _)
      · exact refl _
  | binaryExpression least => exact binaryExpression_approximates h least
  | fieldDefinition =>
      exact after (fun _ => after (fun _ => after (fun _ => after (fun _ =>
        before (signature_approximates h)))))
  | variantDefinition => exact after (fun _ => after (fun _ => before (subtypes_approximates h)))
  | representation => exact representation_approximates h
  | typeDefinition start header head => exact typeDefinition_approximates h start header head
  | traitDefinition start header head => exact traitDefinition_approximates h start header head
  | constantDefinition start header =>
      exact after (fun _ => after (fun _ => after (fun _ => before (signature_approximates h))))
  | instanceValue =>
      apply after
      intro valued
      split
      · exact after (fun _ => after (fun _ => map some (expression_approximates h)))
      · exact refl _
  | instanceDefinition start header => exact instanceDefinition_approximates h start header
  | assignmentHead => exact before (pattern_approximates h)
  | assignmentOrExpression start =>
      apply bind (Approximates.speculate (before (pattern_approximates h)))
      intro pattern
      cases pattern with
      | some pattern => exact after (fun _ => before (expression_approximates h))
      | none => exact before (expression_approximates h)
  | plainStatement start header => exact plainStatement_approximates h start header
  | statementElement comments => exact h.statement comments
  | statement comments => exact statement_approximates h comments
  | statementLine terminator comments => exact before (h.statement comments)
  | statements terminator =>
      exact after (fun bound => statementsUpTo_approximates h terminator bound)
  | speculate _ ih => exact Approximates.speculate ih
  | elementBehind _ ih => exact after (fun _ => ih)
  | wholeLine terminator _ ih => exact before ih
  | lines terminator _ ih => exact Approximates.lines ih
  | enclosed construct separators _ ih => exact Approximates.enclosed ih
  | enclosedRest construct separators first multiline _ ih => exact Approximates.enclosedRest ih
  | _ => exact refl _

end Grammar

/-!
## Rounds
-/

/-- A loop is left in this round, whatever rounds there would be behind it, or it goes on behind
a token that is no comment. -/
def Parser.Round {σ α : Type} (loop : Nat -> σ -> Parser α) (s : σ) (c : Cursor) : Prop :=
  (exists reply, forall bound, loop (bound + 1) s c = reply) ∨
    exists s' d, exists wrap : α -> α, c.Reaches true d ∧
      forall bound, loop (bound + 1) s c = (wrap <$> loop bound s') d

theorem Parser.Round.ofBind {σ α β : Type} {loop : Nat -> σ -> Parser α} {s : σ} {c e : Cursor}
    {first : Parser β} {next : β -> Nat -> Parser α}
    (hloop : forall bound, loop (bound + 1) s c = (first >>= fun value => next value bound) e)
    (hnext : forall value d, first e = .ok value d ->
      (exists reply, forall bound, next value bound d = reply) ∨
        exists s' d', exists wrap : α -> α, c.Reaches true d' ∧
          forall bound, next value bound d = (wrap <$> loop bound s') d') :
    Round loop s c := by
  cases hreply : first e with
  | ok value d =>
      have hround : forall bound, loop (bound + 1) s c = next value bound d := by
        intro bound
        rw [hloop, bind_apply, hreply]
      rcases hnext value d hreply with ⟨reply, hleft⟩ | ⟨s', d', wrap, hway, hon⟩
      · exact Or.inl ⟨reply, fun bound => (hround bound).trans (hleft bound)⟩
      · exact Or.inr ⟨s', d', wrap, hway, fun bound => (hround bound).trans (hon bound)⟩
  | error diagnostic d =>
      refine Or.inl ⟨.error diagnostic d, fun bound => ?_⟩
      rw [hloop, bind_apply, hreply]
  | fault fault =>
      refine Or.inl ⟨.fault fault, fun bound => ?_⟩
      rw [hloop, bind_apply, hreply]

section Rounds

variable {α : Type} {T : Tracing} {E : Excuse} {P : α -> Prop} {item : Parser α} {c : Cursor}

theorem Proceeds.reaches (hitem : Proceeds T E true P item) (hc : T.Fits c) {value : α}
    {d : Cursor} (hvalue : item c = .ok value d) : c.Reaches true d := by
  have hreply := hitem c hc
  rw [hvalue] at hreply
  exact hreply.1

theorem round_repeatUpTo (hitem : Proceeds T E true P item) (hc : T.Fits c)
    (more : Cursor -> Bool) :
    Round (fun bound (_ : Unit) => repeatUpTo more item bound) () c := by
  by_cases hmore : more c = true
  · have hstep : forall bound, repeatUpTo more item (bound + 1) c =
        (item >>= fun value => (value :: ·) <$> repeatUpTo more item bound) c := by
      intro bound
      simp only [repeatUpTo, hmore, if_true]
      rfl
    apply Round.ofBind hstep
    intro value d hvalue
    exact Or.inr ⟨(), d, (value :: ·), hitem.reaches hc hvalue, fun _ => rfl⟩
  · exact Or.inl ⟨.ok [] c, fun bound => by simp [repeatUpTo, hmore]⟩

theorem round_separated (hitem : Proceeds T E true P item) (hc : T.Fits c) (construct : String)
    (separators : List Kind) (separator : Option Kind) (multiline : Bool) :
    Round (fun bound (s : Option Kind × Bool) =>
      separated construct separators item bound s.1 s.2) (separator, multiline) c := by
  have hstep : forall bound, separated construct separators item (bound + 1) separator multiline
      c = (if separators.contains c.kind then _ else _ : Parser _) c := fun _ => rfl
  by_cases hkind : separators.contains c.kind = true
  · simp only [if_pos hkind] at hstep
    by_cases hmixed : (separator.isSome && separator != some c.kind) = true
    · simp only [if_pos hmixed] at hstep
      exact Or.inl ⟨_, hstep⟩
    · simp only [if_neg hmixed] at hstep
      have hway : c.Reaches false c.advance.skipLineBreaks :=
        (Cursor.Reaches.advance hc.final).trans (Cursor.Reaches.skipLineBreaks _)
      have hbehind : forall bound, separated construct separators item (bound + 1) separator
          multiline c = (if c.advance.skipLineBreaks.isAt (.mark .closeParen) then _ else _ :
            Parser _) c.advance.skipLineBreaks := fun bound => hstep bound
      by_cases hclosed : c.advance.skipLineBreaks.isAt (.mark .closeParen) = true
      · simp only [if_pos hclosed] at hbehind
        exact Or.inl ⟨_, hbehind⟩
      · simp only [if_neg hclosed] at hbehind
        apply Round.ofBind hbehind
        intro value d hvalue
        exact Or.inr ⟨(some c.kind, multiline || c.advance.isAt .lineBreak), d,
          fun found => (found.1, value :: found.2),
          hway.trans (hitem.reaches (hc.after hway) hvalue), fun _ => rfl⟩
  · simp only [if_neg hkind] at hstep
    exact Or.inl ⟨_, hstep⟩

end Rounds

theorem Grammar.round_statementsUpTo {level : Level} {T : Tracing} {E : Excuse} {c : Cursor}
    (hlevel : level.Proceeds T E) (hc : T.Fits c) (terminator : Kind) :
    Round (fun bound (_ : Unit) => statementsUpTo level terminator bound) () c := by
  have hstep : forall bound, statementsUpTo level terminator (bound + 1) c =
      (if atListEnd terminator c.skipTrivia then _ else _ : Parser _) c.skipTrivia := fun _ => rfl
  by_cases hended : atListEnd terminator c.skipTrivia = true
  · simp only [if_pos hended] at hstep
    exact Or.inl ⟨_, hstep⟩
  · simp only [if_neg hended] at hstep
    have hskip : c.Reaches false c.skipTrivia := Cursor.Reaches.passage c.skipTrivia_passage
    have hcomments := (Proceeds.leadingComments (E := E) c hc).2
    have hline := statementLine_proceeds hlevel terminator hcomments
    apply Round.ofBind hstep
    intro first d hfirst
    have hreply : (recovering terminator (statementLine level terminator _) c.skipTrivia).Leads
        E c.skipTrivia false _ := recovering_proceeds hline _ (hc.after hskip)
    rw [hfirst] at hreply
    have hway := hskip.trans hreply.1
    by_cases hmore : d.isAt .lineBreak = true
    · have hkind : d.kind = .lineBreak := by simpa [Cursor.isAt] using hmore
      have hbehind := hway.trans
        (Cursor.Reaches.advanceToken (hc.after hway).final (by simp [hkind]))
      refine Or.inr ⟨(), d.advance, (first :: ·), hbehind, fun bound => ?_⟩
      change (if d.isAt .lineBreak then _ else _ : Parser _) d = _
      rw [if_pos hmore]
      rfl
    · refine Or.inl ⟨.ok [first] d, fun bound => ?_⟩
      change (if d.isAt .lineBreak then _ else _ : Parser _) d = _
      rw [if_neg hmore]
      rfl

theorem Cursor.skipInside_passes {c : Cursor} (hfinal : c.final.kind = .endOfInput)
    (terminator : Kind) (depth : Nat) :
    skipInside terminator depth c = c ∨
      exists depth', skipInside terminator depth c = skipInside terminator depth' c.advance ∧
        c.Reaches true c.advance := by
  rcases skipInside_step terminator depth c with ⟨hstop, _⟩ | ⟨token, rest, hs, hends, hnext⟩
  · exact Or.inl hstop
  · refine Or.inr ⟨_, hnext, Reaches.advanceToken hfinal ?_⟩
    rw [kind, current_eq hs]
    exact kind_of_not_endsStatement hends

/-!
## Positions
-/

/-- The cursor stands in the tokens at the index or behind it; if `solid` is set, behind a token
that is no comment. -/
def Cursor.StandsBehind (tokens : List Token) (index : Nat) (solid : Bool) (d : Cursor) : Prop :=
  exists index', index <= index' ∧ d.StandsAt tokens index' ∧
    (solid = true -> exists t, t ∈ (tokens.drop index).take (index' - index) ∧
      t.isComment = false)

theorem Cursor.StandsAt.behind {tokens : List Token} {index : Nat} {solid : Bool} {c d : Cursor}
    (h : c.StandsAt tokens index) (hway : c.Reaches solid d) :
    d.StandsBehind tokens index solid := by
  rcases hway with ⟨read, noted, hpassage, hsolid⟩
  have hdrop := h.drop
  rw [hpassage.ahead, ← hpassage.final, List.append_assoc] at hdrop
  refine ⟨index + read.length, Nat.le_add_right _ _, ⟨?_, ?_⟩, fun htrue => ?_⟩
  · rw [← List.drop_drop, hdrop, List.drop_left]
  · rw [hpassage.final]
    exact h.final
  · rcases hsolid htrue with ⟨t, ht, hcomment⟩
    refine ⟨t, ?_, hcomment⟩
    rw [hdrop, Nat.add_sub_cancel_left, List.take_left]
    exact ht

theorem Cursor.StandsAt.mem_of_ahead {tokens : List Token} {index : Nat} {c : Cursor}
    (h : c.StandsAt tokens index) {t : Token} (ht : t ∈ c.ahead) : t ∈ tokens := by
  apply List.mem_of_mem_drop (i := index)
  rw [h.drop]
  exact List.mem_append_left _ ht

theorem Cursor.StandsAt.fits {tokens : List Token} {index : Nat} {c : Cursor}
    (h : c.StandsAt tokens index) : (Tracing.idle c.ahead).Fits c :=
  ⟨List.suffix_refl _, h.final⟩

theorem Grammar.Rule.answers {α : Type} {solid : Bool} {rule : Level -> Parser α}
    (hrule : Rule solid rule) {tokens : List Token} (hquoted : forall t, t ∈ tokens -> t.Quoted)
    {index : Nat} {c : Cursor} (h : c.StandsAt tokens index) {room : Nat}
    (hroom : maxDepth <= c.depth + room) :
    (forall more, rule (Level.ofRoom (more + room)) c = rule (Level.guarded room) c) ∧
      (rule (Level.guarded room) c).Meets (fun _ d => d.StandsBehind tokens index solid)
        (fun d => d.StandsBehind tokens index false) (fun _ => False) := by
  have hmeets : (rule (Level.guarded room) c).Meets
      (fun _ d => d.StandsBehind tokens index solid)
      (fun d => d.StandsBehind tokens index false) (fun _ => False) := by
    apply Reply.Meets.mono (hrule.proceeds (proceeds_guarded c.ahead room) c h.fits)
    · exact fun value d hd => h.behind hd.1
    · exact fun d hd => h.behind hd
    · rintro fault (⟨_, t, ht, hunquoted⟩ | ⟨_, hlow⟩)
      · exact hunquoted (hquoted t (h.mem_of_ahead ht))
      · omega
  refine ⟨fun more => ?_, hmeets⟩
  rcases hrule.approximates (approximates_guarded room more) c with hsame | ⟨fault, hfault⟩
  · exact hsame
  · rw [hfault] at hmeets
    exact hmeets.elim

open Grammar in
/-- At a position in the tokens of a source text, with levels left until too many are open,
each rule has a reply that more levels do not change, and the position only moves forward,
behind a token where the rule gives a value and takes one.  Each round of a loop takes a
token or leaves the loop, and so does each step of giving up a statement.  Reading the whole
file ends at its end. -/
theorem reading_moves_on (source : String) :
    (forall (index : Nat) (c : Cursor), c.StandsAt (tokenize source).1 index ->
      (forall {α : Type} {solid : Bool} {rule : Level -> Parser α}, Rule solid rule ->
        forall room, maxDepth <= c.depth + room -> exists reply : Reply α,
          (forall more, rule (Level.ofRoom (more + room)) c = reply) ∧
          reply.Meets (fun _ d => d.StandsBehind (tokenize source).1 index solid)
            (fun d => d.StandsBehind (tokenize source).1 index false) (fun _ => False)) ∧
      (forall room terminator,
        Round (fun bound (_ : Unit) => statementsUpTo (Level.ofRoom room) terminator bound)
          () c) ∧
      (forall {α : Type} {rule : Level -> Parser α}, Rule true rule -> forall room more,
        Round (fun bound (_ : Unit) => repeatUpTo more (rule (Level.ofRoom room)) bound) () c) ∧
      (forall {α : Type} {rule : Level -> Parser α}, Rule true rule ->
        forall room construct separators separator multiline,
          Round (fun bound (s : Option Kind × Bool) =>
            separated construct separators (rule (Level.ofRoom room)) bound s.1 s.2)
            (separator, multiline) c) ∧
      forall terminator depth, c.skipInside terminator depth = c ∨
        exists depth', c.skipInside terminator depth = c.advance.skipInside terminator depth' ∧
          c.Reaches true c.advance) ∧
    exists found d, statements Level.outermost .endOfInput (Cursor.ofTokens (tokenize source).1) =
      .ok found d ∧ d.kind = .endOfInput := by
  have hquoted : forall t, t ∈ (tokenize source).1 -> t.Quoted :=
    fun _ ht => (admits_tokenize ht).2
  constructor
  · intro index c hstands
    have hc := hstands.fits
    refine ⟨?_, ?_, ?_, ?_, ?_⟩
    · intro α solid rule hrule room hroom
      exact ⟨_, hrule.answers hquoted hstands hroom⟩
    · intro room terminator
      exact round_statementsUpTo (proceeds_idle room) hc terminator
    · intro α rule hrule room more
      exact round_repeatUpTo (hrule.proceeds (proceeds_idle room)) hc more
    · intro α rule hrule room construct separators separator multiline
      exact round_separated (hrule.proceeds (proceeds_idle room)) hc construct separators
        separator multiline
    · exact Cursor.skipInside_passes hstands.final
  · exact statements_tokenize source

/-- The first position in a text, where two more levels may be opened. -/
def Cursor.atDeepGroup : Cursor :=
  { Cursor.ofTokens (tokenize "(f x) -- y").1 with depth := 62 }

/-- The group takes one of the two levels, and what stands in it takes the other. -/
theorem reading_moves_on_atDeepGroup :
    Cursor.atDeepGroup.StandsAt (tokenize "(f x) -- y").1 0 ∧
      maxDepth = Cursor.atDeepGroup.depth + 2 ∧
      exists value d, (forall more, Grammar.expression (Level.ofRoom (more + 2))
          Cursor.atDeepGroup = .ok value d) ∧
        d.StandsBehind (tokenize "(f x) -- y").1 0 true := by
  have hstands : Cursor.atDeepGroup.StandsAt (tokenize "(f x) -- y").1 0 :=
    ⟨by decide +kernel, by decide +kernel⟩
  have hdepth : maxDepth = Cursor.atDeepGroup.depth + 2 := by decide +kernel
  have hread : (match Grammar.expression (Level.ofRoom (0 + 2)) Cursor.atDeepGroup with
    | .ok _ _ => true
    | _ => false) = true := by decide +kernel
  rcases ((reading_moves_on "(f x) -- y").1 0 _ hstands).1 Grammar.Rule.expression 2
    (Nat.le_of_eq hdepth) with ⟨reply, hsame, hmeets⟩
  rw [hsame 0] at hread
  refine ⟨hstands, hdepth, ?_⟩
  cases reply with
  | ok value d => exact ⟨value, d, hsame, hmeets⟩
  | error diagnostic d => cases hread
  | fault fault => cases hread

end Linewise
