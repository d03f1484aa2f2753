import Linewise.Grammar.Nesting

/-!
# Readings that leave levels unopened

Whether a reading opens a level cannot be told from its reply: the level may have been
opened on a trial that was taken back.  But no rule answers for a fault of another, so a
level that must not be opened can be replaced by a fault.  A reading that meets none
never opened the level, and what would have been in its place makes no difference.
-/

namespace Linewise

def Parser.Approximates {α : Type} (first second : Parser α) : Prop :=
  forall c, second c = first c ∨ exists fault, first c = .fault fault

structure Level.Approximates (level level' : Level) : Prop where
  statement : forall comments,
    (level.statement comments).Approximates (level'.statement comments)
  expression : forall least, (level.expression least).Approximates (level'.expression least)
  pattern : level.pattern.Approximates level'.pattern
  type : level.type.Approximates level'.type

namespace Level

def barred : Level where
  statement := fun _ => Parser.faulty .unbalanced
  expression := fun _ => Parser.faulty .unbalanced
  pattern := Parser.faulty .unbalanced
  type := Parser.faulty .unbalanced

/-- The level inside of which `room` others are opened, and it is a fault to open one
more. -/
def confined : Nat -> Level
  | 0 => barred
  | room + 1 => around (confined room)

end Level

/-!
## Combinators
-/

namespace Parser.Approximates

variable {α β : Type} {first first' : Parser α} {next next' : α -> Parser β}

theorem refl (parser : Parser α) : parser.Approximates parser := fun _ => Or.inl rfl

theorem faulty (fault : Fault) (parser : Parser α) :
    (Parser.faulty fault : Parser α).Approximates parser := fun _ => Or.inr ⟨fault, rfl⟩

theorem bind (hfirst : first.Approximates first')
    (hnext : forall value, (next value).Approximates (next' value)) :
    (first >>= next).Approximates (first' >>= next') := by
  intro c
  rw [bind_apply, bind_apply]
  rcases hfirst c with hsame | ⟨fault, hfault⟩
  · rw [hsame]
    cases first c with
    | ok value d => exact hnext value d
    | error diagnostic d => exact Or.inl rfl
    | fault fault => exact Or.inl rfl
  · rw [hfault]
    exact Or.inr ⟨fault, rfl⟩

theorem before (h : first.Approximates first') :
    (first >>= next).Approximates (first' >>= next) :=
  bind h (fun _ => refl _)

theorem after (h : forall value, (next value).Approximates (next' value)) :
    (first >>= next).Approximates (first >>= next') :=
  bind (refl _) h

theorem map (f : α -> β) (h : first.Approximates first') :
    (f <$> first).Approximates (f <$> first') := before h

theorem nested (h : first.Approximates first') :
    (Parser.nested first).Approximates (Parser.nested first') := by
  intro c
  unfold Parser.nested
  split
  · rcases h { c with depth := c.depth + 1 } with hsame | ⟨fault, hfault⟩
    · rw [hsame]
      exact Or.inl rfl
    · rw [hfault]
      exact Or.inr ⟨fault, rfl⟩
  · exact Or.inl rfl

theorem speculate (h : first.Approximates first') :
    (Parser.speculate first).Approximates (Parser.speculate first') := by
  intro c
  unfold Parser.speculate
  rcases h c with hsame | ⟨fault, hfault⟩
  · rw [hsame]
    exact Or.inl rfl
  · rw [hfault]
    exact Or.inr ⟨fault, rfl⟩

theorem recovering {line line' : Parser Statement} (terminator : Kind)
    (h : line.Approximates line') :
    (Grammar.recovering terminator line).Approximates (Grammar.recovering terminator line') := by
  intro c
  unfold Grammar.recovering
  rcases h c with hsame | ⟨fault, hfault⟩
  · rw [hsame]
    exact Or.inl rfl
  · rw [hfault]
    exact Or.inr ⟨fault, rfl⟩

theorem repeatUpTo {more : Cursor -> Bool} (h : first.Approximates first') (bound : Nat) :
    (Parser.repeatUpTo more first bound).Approximates
      (Parser.repeatUpTo more first' bound) := by
  induction bound with
  | zero => exact refl _
  | succ bound ih =>
      intro c
      unfold Parser.repeatUpTo
      split
      · exact bind h (fun _ => before ih) c
      · exact Or.inl rfl

theorem repeatWhile {more : Cursor -> Bool} (h : first.Approximates first') :
    (Parser.repeatWhile more first).Approximates (Parser.repeatWhile more first') :=
  fun c => repeatUpTo h c.ahead.length c

theorem lines {terminator : Kind} (h : first.Approximates first') :
    (Parser.lines terminator first).Approximates (Parser.lines terminator first') :=
  after (fun _ => repeatWhile (before h))

theorem separated {construct : String} {separators : List Kind} (h : first.Approximates first')
    (bound : Nat) (separator : Option Kind) (multiline : Bool) :
    (Parser.separated construct separators first bound separator multiline).Approximates
      (Parser.separated construct separators first' bound separator multiline) := by
  induction bound generalizing separator multiline with
  | zero => exact refl _
  | succ bound ih =>
      apply after
      intro kind
      split
      · split
        · exact refl _
        · apply after
          intro _
          apply after
          intro skipped
          apply after
          intro closed
          split
          · exact refl _
          · exact bind h (fun _ => before (ih _ _))
      · exact refl _

theorem enclosedRest {construct : String} {separators : List Kind} {value : α}
    {multiline : Bool} (h : first.Approximates first') :
    (Parser.enclosedRest construct separators value multiline first).Approximates
      (Parser.enclosedRest construct separators value multiline first') :=
  after (fun bound => before (separated h bound none multiline))

theorem enclosed {construct : String} {separators : List Kind} (h : first.Approximates first') :
    (Parser.enclosed construct separators first).Approximates
      (Parser.enclosed construct separators first') := by
  apply after
  intro _
  apply after
  intro empty
  split
  · exact refl _
  · apply after
    intro multiline
    apply after
    intro kind
    split
    · exact refl _
    · exact bind h (fun _ => enclosedRest h)

end Parser.Approximates

namespace Grammar

open Linewise.Parser
open Linewise.Parser.Approximates

variable {level level' : Level}

/-!
## Types
-/

theorem parenthesizedType_approximates (h : level.Approximates level') :
    (parenthesizedType level).Approximates (parenthesizedType level') :=
  after (fun _ => before (enclosed h.type))

theorem subtype_approximates (h : level.Approximates level') :
    (subtype level).Approximates (subtype level') := by
  apply after
  intro kind
  split
  · exact refl _
  · exact refl _
  · exact refl _
  · exact after (fun _ => after (fun _ => before h.type))
  · exact parenthesizedType_approximates h
  · exact refl _

theorem subtypes_approximates (h : level.Approximates level') :
    (subtypes level).Approximates (subtypes level') := repeatWhile (subtype_approximates h)

theorem functionOrNamedType_approximates (h : level.Approximates level') :
    (functionOrNamedType level).Approximates (functionOrNamedType level') := by
  apply after
  intro start
  apply after
  intro bare
  apply bind (subtype_approximates h)
  intro first
  apply bind (subtypes_approximates h)
  intro rest
  apply after
  intro arrow
  split
  · exact after (fun _ => after (fun _ => before h.type))
  · exact refl _

theorem constraintBody_approximates (h : level.Approximates level') :
    (constraintBody level).Approximates (constraintBody level') := by
  apply after
  intro start
  apply after
  intro kind
  split
  · exact refl _
  · exact after (fun _ => after (fun _ => after (fun _ => before h.type)))
  · apply after
    intro trait
    apply bind (subtype_approximates h)
    intro first
    exact before (subtypes_approximates h)
  · exact refl _

theorem constraint_approximates (h : level.Approximates level') :
    (constraint level).Approximates (constraint level') :=
  after (fun _ => before (constraintBody_approximates h))

theorem whereClause_approximates (h : level.Approximates level') :
    (whereClause level).Approximates (whereClause level') := by
  apply after
  intro present
  split
  · apply after
    intro opening
    apply bind (constraint_approximates h)
    intro first
    exact before (repeatWhile (constraint_approximates h))
  · exact refl _

theorem signature_approximates (h : level.Approximates level') :
    (signature level).Approximates (signature level') :=
  after (fun _ => bind h.type (fun _ => before (whereClause_approximates h)))

/-!
## Patterns
-/

theorem pattern_approximates (h : level.Approximates level') :
    (pattern level).Approximates (pattern level') := by
  apply after
  intro start
  apply bind h.pattern
  intro first
  exact before (repeatWhile (after (fun _ => h.pattern)))

theorem destructurePattern_approximates (h : level.Approximates level') :
    (destructurePattern level).Approximates (destructurePattern level') := by
  have hfield : (destructureField level).Approximates (destructureField level') :=
    after (fun _ => after (fun _ => after (fun _ => after (fun _ =>
      before (pattern_approximates h)))))
  exact after (fun _ => before (lines hfield))

theorem parenthesizedPattern_approximates (h : level.Approximates level') :
    (parenthesizedPattern level).Approximates (parenthesizedPattern level') := by
  apply after
  intro start
  apply after
  intro plain
  split
  · exact before (enclosed h.pattern)
  · apply after
    intro _
    apply bind h.pattern
    intro first
    apply after
    intro annotated
    split
    · exact after (fun _ => after (fun _ => before h.type))
    · exact before (enclosedRest h.pattern)

theorem subpattern_approximates (h : level.Approximates level') :
    (subpattern level).Approximates (subpattern level') := by
  apply after
  intro kind
  split
  · exact refl _
  · exact refl _
  · exact refl _
  · exact refl _
  · exact destructurePattern_approximates h
  · exact parenthesizedPattern_approximates h
  · exact refl _

theorem subpatterns_approximates (h : level.Approximates level') :
    (subpatterns level).Approximates (subpatterns level') :=
  repeatWhile (subpattern_approximates h)

theorem patternOperand_approximates (h : level.Approximates level') :
    (patternOperand level).Approximates (patternOperand level') := by
  apply after
  intro start
  apply after
  intro kind
  split
  · exact refl _
  · exact after (fun _ => before (subpatterns_approximates h))
  · exact subpattern_approximates h

theorem orPattern_approximates (h : level.Approximates level') :
    (orPattern level).Approximates (orPattern level') := by
  apply after
  intro start
  have halternative : (alternative level start).Approximates (alternative level' start) :=
    after (fun _ => after (fun _ => before (patternOperand_approximates h)))
  apply bind (patternOperand_approximates h)
  intro first
  exact before (repeatWhile halternative)

/-!
## Expressions
-/

theorem expression_approximates (h : level.Approximates level') :
    (expression level).Approximates (expression level') := by
  apply after
  intro start
  apply bind (h.expression 0)
  intro first
  apply after
  intro separator
  split
  · apply before
    apply Approximates.repeatWhile
    apply after
    intro kind
    split
    · exact after (fun _ => h.expression 0)
    · exact refl _
  · exact refl _

theorem statementsUpTo_approximates (h : level.Approximates level') (terminator : Kind)
    (bound : Nat) :
    (statementsUpTo level terminator bound).Approximates
      (statementsUpTo level' terminator bound) := by
  induction bound with
  | zero => exact refl _
  | succ bound ih =>
      apply after
      intro comments
      apply after
      intro ended
      split
      · exact refl _
      · apply bind (Approximates.recovering terminator (before (h.statement comments)))
        intro first
        apply after
        intro more
        split
        · exact after (fun _ => before ih)
        · exact refl _

theorem bracedExpression_approximates (h : level.Approximates level') :
    (bracedExpression level).Approximates (bracedExpression level') := by
  apply after
  intro opening
  apply before
  exact after (fun bound => statementsUpTo_approximates h _ bound)

theorem subexpression_approximates (h : level.Approximates level') :
    (subexpression level).Approximates (subexpression level') := by
  apply after
  intro kind
  split
  · exact refl _
  · exact refl _
  · exact refl _
  · exact refl _
  · exact refl _
  · exact bracedExpression_approximates h
  · exact after (fun _ => before (enclosed (h.expression 0)))
  · exact refl _

theorem inputs_approximates (h : level.Approximates level') :
    (inputs level).Approximates (inputs level') := repeatWhile (subexpression_approximates h)

theorem arm_approximates (h : level.Approximates level') :
    (arm level).Approximates (arm level') := by
  apply after
  intro start
  apply bind (pattern_approximates h)
  intro pattern
  exact after (fun _ => after (fun _ => before (expression_approximates h)))

theorem whenExpression_approximates (h : level.Approximates level') :
    (whenExpression level).Approximates (whenExpression level') := by
  apply after
  intro opening
  apply bind (subexpression_approximates h)
  intro input
  exact after (fun _ => before (lines (arm_approximates h)))

theorem callExpression_approximates (h : level.Approximates level') (start : Span) :
    (callExpression level start).Approximates (callExpression level' start) := by
  apply after
  intro textHead
  apply bind (subexpression_approximates h)
  intro head
  apply after
  intro more
  split
  · exact before (inputs_approximates h)
  · exact refl _

theorem operand_approximates (h : level.Approximates level') :
    (operand level).Approximates (operand level') := by
  apply after
  intro start
  apply after
  intro kind
  split
  · exact after (fun _ => before (subexpression_approximates h))
  · exact whenExpression_approximates h
  · exact after (fun _ => after (fun _ => before (inputs_approximates h)))
  · exact callExpression_approximates h start

theorem functionLiteral_approximates (h : level.Approximates level') :
    (functionLiteral level).Approximates (functionLiteral level') := by
  have hinputs : (functionInputs level).Approximates (functionInputs level') :=
    bind (subpattern_approximates h) (fun _ => before (subpatterns_approximates h))
  apply after
  intro start
  apply after
  intro worthTrying
  dsimp only
  split
  · apply bind (Approximates.speculate hinputs)
    intro inputs
    cases inputs with
    | none => exact refl _
    | some inputs => exact after (fun _ => before (h.expression 0))
  · exact refl _

theorem rightOperand_approximates (h : level.Approximates level') (operator : Operator) :
    (rightOperand level operator).Approximates (rightOperand level' operator) := by
  unfold rightOperand
  split
  · exact before (h.expression _)
  · exact before h.type
  · exact before (patternOperand_approximates h)

theorem binaryExpression_approximates (h : level.Approximates level') (least : Nat) :
    (binaryExpression level least).Approximates (binaryExpression level' least) := by
  apply after
  intro start
  have hcontinuation : (continuation level start).Approximates (continuation level' start) := by
    apply after
    intro token
    apply after
    intro _
    cases token.operator? with
    | none => exact refl _
    | some operator => exact before (rightOperand_approximates h operator)
  apply bind (functionLiteral_approximates h)
  intro function
  cases function with
  | some function => exact refl _
  | none =>
      apply bind (operand_approximates h)
      intro first
      exact before (repeatWhile hcontinuation)

/-!
## Statements
-/

theorem representation_approximates (h : level.Approximates level') :
    (representation level).Approximates (representation level') := by
  have hfield : (fieldDefinition level).Approximates (fieldDefinition level') :=
    after (fun _ => after (fun _ => after (fun _ => after (fun _ =>
      before (signature_approximates h)))))
  have hvariant : (variantDefinition level).Approximates (variantDefinition level') :=
    after (fun _ => after (fun _ => before (subtypes_approximates h)))
  apply after
  intro opening
  apply after
  intro _
  apply after
  intro kind
  split
  · exact before (lines hfield)
  · exact before (lines hvariant)
  · exact refl _

theorem typeDefinition_approximates (h : level.Approximates level') (start : Span)
    (header : Header) (head : DefinitionHead) :
    (typeDefinition level start header head).Approximates
      (typeDefinition level' start header head) := by
  apply after
  intro _
  apply after
  intro braced
  dsimp only
  split
  · exact before (map some (representation_approximates h))
  · exact refl _

theorem traitDefinition_approximates (h : level.Approximates level') (start : Span)
    (header : Header) (head : DefinitionHead) :
    (traitDefinition level start header head).Approximates
      (traitDefinition level' start header head) := by
  apply after
  intro _
  apply after
  intro typed
  dsimp only
  split
  · exact bind (map some (subtype_approximates h))
      (fun _ => before (whereClause_approximates h))
  · exact after (fun _ => before (whereClause_approximates h))

theorem instanceDefinition_approximates (h : level.Approximates level') (start : Span)
    (header : Header) :
    (instanceDefinition level start header).Approximates
      (instanceDefinition level' start header) := by
  have hvalue : (instanceValue level).Approximates (instanceValue level') := by
    apply after
    intro valued
    split
    · exact after (fun _ => after (fun _ => map some (expression_approximates h)))
    · exact refl _
  apply after
  intro _
  apply after
  intro _
  apply after
  intro trait
  apply bind (subtype_approximates h)
  intro first
  apply bind (subtypes_approximates h)
  intro rest
  apply after
  intro _
  apply bind (whereClause_approximates h)
  intro clause
  exact before hvalue

theorem plainStatement_approximates (h : level.Approximates level') (start : Span)
    (header : Header) :
    (plainStatement level start header).Approximates (plainStatement level' start header) := by
  have hhead : (assignmentHead level).Approximates (assignmentHead level') :=
    before (pattern_approximates h)
  apply after
  intro constant
  split
  · exact after (fun _ => after (fun _ => after (fun _ => before (signature_approximates h))))
  · split
    · apply bind (Approximates.speculate hhead)
      intro pattern
      cases pattern with
      | some pattern => exact after (fun _ => before (expression_approximates h))
      | none => exact before (expression_approximates h)
    · exact refl _

theorem statement_approximates (h : level.Approximates level') (comments : List Lexeme) :
    (statement level comments).Approximates (statement level' comments) := by
  apply after
  intro start
  apply after
  intro attributes
  apply after
  intro isInstance
  split
  · exact instanceDefinition_approximates h start _
  · apply after
    intro head
    cases head with
    | some head =>
        apply after
        intro isType
        split
        · exact typeDefinition_approximates h start _ head
        · exact traitDefinition_approximates h start _ head
    | none => exact plainStatement_approximates h start _

/-!
## Levels
-/

theorem approximates_ofRoom (room more : Nat) :
    (Level.confined room).Approximates (Level.ofRoom (more + room)) := by
  induction room with
  | zero =>
      exact {
        statement := fun _ => Approximates.faulty _ _
        expression := fun _ => Approximates.faulty _ _
        pattern := Approximates.faulty _ _
        type := Approximates.faulty _ _ }
  | succ room ih =>
      exact {
        statement := fun comments => Approximates.nested (statement_approximates ih comments)
        expression := fun least => Approximates.nested (binaryExpression_approximates ih least)
        pattern := Approximates.nested (orPattern_approximates ih)
        type := Approximates.nested (functionOrNamedType_approximates ih) }

end Grammar

end Linewise
