import Linewise.Proofs.Progress.Statement

/-!
# The rules of the grammar

All rules of the grammar are parsers of a level.  Whatever rule is tried from wherever, the
levels that it opens are closed again and it only adds diagnostics, so going back to a
checkpoint, which remembers neither, brings back the whole cursor.
-/

namespace Linewise

open Linewise.Parser

namespace Grammar

/-- The rules of the grammar, and the layouts of rules.  Those that are marked take a token
that is no comment where they give a value. -/
inductive Rule : Bool -> {α : Type} -> (Level -> Parser α) -> Prop where
  -- names and literals
  | typeName : Rule true (fun _ => typeName)
  | variantName : Rule true (fun _ => variantName)
  | variableName : Rule true (fun _ => variableName)
  | typeParameterName : Rule true (fun _ => typeParameterName)
  | attributeName : Rule true (fun _ => attributeName)
  | number : Rule true (fun _ => number)
  | text : Rule true (fun _ => text)
  -- types
  | type : Rule true Level.type
  | placeholderType : Rule true (fun _ => placeholderType)
  | parameterType : Rule true (fun _ => parameterType)
  | namedType : Rule true (fun _ => namedType)
  | blockType : Rule true blockType
  | parenthesizedType : Rule true parenthesizedType
  | subtype : Rule true subtype
  | subtypes : Rule false subtypes
  | functionOrNamedType : Rule true functionOrNamedType
  | constraintBody : Rule true constraintBody
  | constraint : Rule true constraint
  | whereClause : Rule false whereClause
  | signature : Rule true signature
  | typeFunction : Rule true (fun _ => typeFunction)
  -- patterns
  | patternElement : Rule true Level.pattern
  | pattern : Rule true pattern
  | wildcardPattern : Rule true (fun _ => wildcardPattern)
  | variablePattern : Rule true (fun _ => variablePattern)
  | numberPattern : Rule true (fun _ => numberPattern)
  | textPattern : Rule true (fun _ => textPattern)
  | destructureField : Rule true destructureField
  | destructurePattern : Rule true destructurePattern
  | enclosedPattern (start : Span) (form : Enclosed Pattern) :
      Rule false (fun _ => enclosedPattern start form)
  | parenthesizedPattern : Rule true parenthesizedPattern
  | subpattern : Rule true subpattern
  | subpatterns : Rule false subpatterns
  | patternOperand : Rule true patternOperand
  | alternative (start : Span) : Rule true (fun level => alternative level start)
  | orPattern : Rule true orPattern
  -- expressions
  | expressionElement (least : Nat) : Rule true (fun level => level.expression least)
  | expression : Rule true expression
  | nextElement (separator : Kind) : Rule true (fun level => nextElement level separator)
  | placeholderExpression : Rule true (fun _ => placeholderExpression)
  | variableExpression : Rule true (fun _ => variableExpression)
  | typeNameExpression : Rule true (fun _ => typeNameExpression)
  | numberExpression : Rule true (fun _ => numberExpression)
  | textExpression : Rule true (fun _ => textExpression)
  | bracedExpression : Rule true bracedExpression
  | parenthesizedExpression : Rule true parenthesizedExpression
  | subexpression : Rule true subexpression
  | inputs : Rule false inputs
  | performExpression (start : Span) : Rule true (fun level => performExpression level start)
  | arm : Rule true arm
  | whenExpression : Rule true whenExpression
  | intrinsicExpression (start : Span) :
      Rule true (fun level => intrinsicExpression level start)
  | callExpression (start : Span) : Rule true (fun level => callExpression level start)
  | operand : Rule true operand
  | functionInputs : Rule true functionInputs
  | functionLiteral : Rule false functionLiteral
  | rightOperand (operator : Operator) : Rule true (fun level => rightOperand level operator)
  | continuation (start : Span) : Rule true (fun level => continuation level start)
  | binaryExpression (least : Nat) : Rule true (fun level => binaryExpression level least)
  -- attributes and definitions
  | attributeValue (name : Lexeme) (start : Span) :
      Rule true (fun _ => attributeValue name start)
  | bracketedAttribute : Rule true (fun _ => bracketedAttribute)
  | attributeLine : Rule true (fun _ => attributeLine)
  | attributes : Rule false (fun _ => attributes)
  | fieldDefinition : Rule true fieldDefinition
  | variantDefinition : Rule true variantDefinition
  | representation : Rule true representation
  | definitionHead : Rule true (fun _ => definitionHead)
  | definitionHead? : Rule false (fun _ => definitionHead?)
  | typeDefinition (start : Span) (header : Header) (head : DefinitionHead) :
      Rule true (fun level => typeDefinition level start header head)
  | traitDefinition (start : Span) (header : Header) (head : DefinitionHead) :
      Rule true (fun level => traitDefinition level start header head)
  | constantDefinition (start : Span) (header : Header) :
      Rule true (fun level => constantDefinition level start header)
  | instanceValue : Rule false instanceValue
  | instanceDefinition (start : Span) (header : Header) :
      Rule true (fun level => instanceDefinition level start header)
  -- statements
  | assignmentHead : Rule true assignmentHead
  | assignmentOrExpression (start : Span) :
      Rule true (fun level => assignmentOrExpression level start)
  | plainStatement (start : Span) (header : Header) :
      Rule true (fun level => plainStatement level start header)
  | statementElement (comments : List Lexeme) : Rule true (fun level => level.statement comments)
  | statement (comments : List Lexeme) : Rule true (fun level => statement level comments)
  | endOfStatement (terminator : Kind) : Rule false (fun _ => endOfStatement terminator)
  | statementLine (terminator : Kind) (comments : List Lexeme) :
      Rule true (fun level => statementLine level terminator comments)
  | statements (terminator : Kind) : Rule false (fun level => statements level terminator)
  -- trials and layouts
  | speculate {α : Type} {rule : Level -> Parser α} (h : Rule true rule) :
      Rule false (fun level => speculate (rule level))
  | elementBehind {α : Type} {rule : Level -> Parser α} (h : Rule true rule) :
      Rule true (fun level => elementBehind (rule level))
  | wholeLine {α : Type} {rule : Level -> Parser α} (terminator : Kind) (h : Rule true rule) :
      Rule true (fun level => wholeLine terminator (rule level))
  | lines {α : Type} {rule : Level -> Parser α} (terminator : Kind) (h : Rule true rule) :
      Rule false (fun level => lines terminator (rule level))
  | enclosed {α : Type} {rule : Level -> Parser α} (construct : String) (separators : List Kind)
      (h : Rule true rule) : Rule true (fun level => enclosed construct separators (rule level))
  | enclosedRest {α : Type} {rule : Level -> Parser α} (construct : String)
      (separators : List Kind) (first : α) (multiline : Bool) (h : Rule true rule) :
      Rule true (fun level => enclosedRest construct separators first multiline (rule level))

end Grammar

/-!
## All rules go on
-/

def Tracing.idle (text : List Token) : Tracing where
  text := text
  Leaf := fun _ _ => True
  Block := fun _ _ => True
  leaf := fun _ _ => trivial

namespace Tracing

variable {text : List Token}

theorem traces_idle (node : Node) : (idle text).Traces node := by
  intro n _
  cases n with
  | leaf kind lexeme => exact ⟨trivial, trivial⟩
  | bare kind lexeme => exact ⟨trivial, trivial⟩
  | branch tag span children => exact ⟨fun _ => trivial, fun _ => trivial⟩
  | group tag span children => exact ⟨trivial, trivial⟩

theorem tracesAll_idle (nodes : List Node) : (idle text).TracesAll nodes :=
  fun node _ => traces_idle node

theorem admits_idle (level : Level) : (idle text).Admits level :=
  fun _ _ _ _ _ => ⟨fun _ => trivial, fun _ _ => trivial⟩

end Tracing

theorem Proceeds.any {α : Type} {T : Tracing} {E : Excuse} {solid : Bool} {P : α -> Prop}
    {parser : Parser α} (h : Proceeds T E solid P parser) :
    Proceeds T E solid (fun _ => True) parser := h.mono (fun _ _ => trivial)

theorem Tries.any {α : Type} {T : Tracing} {E : Excuse} {P : α -> Prop}
    {parser : Parser (Option α)} (h : Tries T E P parser) :
    Proceeds T E false (fun _ => True) parser := by
  intro c hc
  apply Reply.Meets.imp (h c hc)
  rintro found d (⟨_, rfl⟩ | ⟨value, _, _, hway⟩)
  · exact ⟨Cursor.Reaches.refl d, trivial⟩
  · exact ⟨hway.weaken, trivial⟩

namespace Grammar

variable {text : List Token} {E : Excuse} {level : Level}

theorem Rule.proceeds {α : Type} {solid : Bool} {rule : Level -> Parser α}
    (hrule : Rule solid rule) (hlevel : level.Proceeds (Tracing.idle text) E) :
    Proceeds (Tracing.idle text) E solid (fun _ => True) (rule level) := by
  have hidle := @Tracing.tracesAll_idle text
  induction hrule with
  | typeName => exact typeName_proceeds.any
  | variantName => exact variantName_proceeds.any
  | variableName => exact variableName_proceeds.any
  | typeParameterName => exact typeParameterName_proceeds.any
  | attributeName => exact attributeName_proceeds.any
  | number => exact number_proceeds.any
  | text => exact Proceeds.text.any
  | type => exact hlevel.type.any
  | placeholderType => exact placeholderType_proceeds.any
  | parameterType => exact parameterType_proceeds.any
  | namedType => exact namedType_proceeds.any
  | blockType => exact (blockType_proceeds hlevel).any
  | parenthesizedType => exact (parenthesizedType_proceeds hlevel).any
  | subtype => exact (subtype_proceeds hlevel).any
  | subtypes => exact (subtypes_proceeds hlevel).any
  | functionOrNamedType => exact (functionOrNamedType_proceeds hlevel).any
  | constraintBody => exact (constraintBody_proceeds hlevel).any
  | constraint => exact (constraint_proceeds hlevel).any
  | whereClause => exact (whereClause_proceeds hlevel).any
  | signature => exact (signature_proceeds hlevel).any
  | typeFunction => exact typeFunction_proceeds.any
  | patternElement => exact hlevel.pattern.any
  | pattern => exact (pattern_proceeds hlevel).any
  | wildcardPattern => exact wildcardPattern_proceeds.any
  | variablePattern => exact variablePattern_proceeds.any
  | numberPattern => exact numberPattern_proceeds.any
  | textPattern => exact textPattern_proceeds.any
  | destructureField => exact (destructureField_proceeds hlevel).any
  | destructurePattern => exact (destructurePattern_proceeds hlevel).any
  | enclosedPattern start form =>
      have hform : Makes.ofEnclosed (fun pattern => (Tracing.idle text).Traces pattern.node)
          form := by
        cases form with
        | unit => trivial
        | group pattern => exact Tracing.traces_idle _
        | sequence separator elements => exact fun _ _ => Tracing.traces_idle _
      exact (enclosedPattern_proceeds hform).any
  | parenthesizedPattern => exact (parenthesizedPattern_proceeds hlevel).any
  | subpattern => exact (subpattern_proceeds hlevel).any
  | subpatterns => exact (subpatterns_proceeds hlevel).any
  | patternOperand => exact (patternOperand_proceeds hlevel).any
  | alternative start => exact (alternative_proceeds hlevel start).any
  | orPattern => exact (orPattern_proceeds hlevel).any
  | expressionElement least => exact (hlevel.expression least).any
  | expression => exact (expression_proceeds hlevel).any
  | nextElement separator => exact (nextElement_proceeds hlevel separator).any
  | placeholderExpression => exact placeholderExpression_proceeds.any
  | variableExpression => exact variableExpression_proceeds.any
  | typeNameExpression => exact typeNameExpression_proceeds.any
  | numberExpression => exact numberExpression_proceeds.any
  | textExpression => exact textExpression_proceeds.any
  | bracedExpression => exact (bracedExpression_proceeds hlevel).any
  | parenthesizedExpression => exact (parenthesizedExpression_proceeds hlevel).any
  | subexpression => exact (subexpression_proceeds hlevel).any
  | inputs => exact (inputs_proceeds hlevel).any
  | performExpression start => exact (performExpression_proceeds hlevel start).any
  | arm => exact (arm_proceeds hlevel).any
  | whenExpression => exact (whenExpression_proceeds hlevel).any
  | intrinsicExpression start => exact (intrinsicExpression_proceeds hlevel start).any
  | callExpression start => exact (callExpression_proceeds hlevel start).any
  | operand => exact (operand_proceeds hlevel).any
  | functionInputs => exact (functionInputs_proceeds hlevel).any
  | functionLiteral => exact (functionLiteral_tries hlevel).any
  | rightOperand operator => exact (rightOperand_proceeds hlevel operator).any
  | continuation start => exact (continuation_proceeds hlevel start).any
  | binaryExpression least => exact (binaryExpression_proceeds hlevel least).any
  | attributeValue name start => exact (attributeValue_proceeds trivial).any
  | bracketedAttribute => exact bracketedAttribute_proceeds.any
  | attributeLine => exact attributeLine_proceeds.any
  | attributes => exact attributes_proceeds.any
  | fieldDefinition => exact (fieldDefinition_proceeds hlevel).any
  | variantDefinition => exact (variantDefinition_proceeds hlevel).any
  | representation => exact (representation_proceeds hlevel).any
  | definitionHead => exact definitionHead_proceeds.any
  | definitionHead? => exact definitionHead?_tries.any
  | typeDefinition start header head =>
      exact (typeDefinition_proceeds hlevel (hidle _) (hidle _)).any
  | traitDefinition start header head =>
      exact (traitDefinition_proceeds hlevel (hidle _) (hidle _)).any
  | constantDefinition start header => exact (constantDefinition_proceeds hlevel (hidle _)).any
  | instanceValue => exact (instanceValue_proceeds hlevel).any
  | instanceDefinition start header => exact (instanceDefinition_proceeds hlevel (hidle _)).any
  | assignmentHead => exact (assignmentHead_proceeds hlevel).any
  | assignmentOrExpression start => exact (assignmentOrExpression_proceeds hlevel start).any
  | plainStatement start header => exact (plainStatement_proceeds hlevel start (hidle _)).any
  | statementElement comments => exact (hlevel.statement comments (fun _ _ => trivial)).any
  | statement comments => exact (statement_proceeds hlevel (fun _ _ => trivial)).any
  | endOfStatement terminator => exact endOfStatement_proceeds terminator
  | statementLine terminator comments =>
      exact (statementLine_proceeds hlevel terminator (fun _ _ => trivial)).any
  | statements terminator => exact (statements_proceeds hlevel terminator).any
  | speculate _ ih => exact ih.speculate.any
  | elementBehind _ ih => exact elementBehind_proceeds ih
  | wholeLine terminator _ ih => exact ih.wholeLine
  | lines terminator _ ih => exact ih.lines.any
  | enclosed construct separators _ ih => exact ih.enclosed.any
  | enclosedRest construct separators first multiline _ ih =>
      exact (ih.enclosedRest trivial multiline).any

theorem proceeds_idle (room : Nat) :
    (Level.ofRoom room).Proceeds (Tracing.idle text) Excuse.unquotedText :=
  proceeds_ofRoom (fun _ => Tracing.admits_idle _) room

end Grammar

/-!
## Trials without a trace
-/

theorem Cursor.Reaches.balanced {c d : Cursor} {solid : Bool} (h : c.Reaches solid d) :
    d.depth = c.depth ∧ c.errors <+: d.errors := by
  rcases h with ⟨read, noted, hpassage, _⟩
  rw [hpassage.errors]
  exact ⟨hpassage.depth, List.prefix_append _ _⟩

theorem Tries.eq_of_none {α : Type} {T : Tracing} {E : Excuse} {P : α -> Prop}
    {parser : Parser (Option α)} (h : Tries T E P parser) {c d : Cursor} (hc : T.Fits c)
    (hnone : parser c = .ok .none d) : d = c := by
  have hreply := h c hc
  rw [hnone] at hreply
  rcases hreply with ⟨_, hsame⟩ | ⟨value, hvalue, _⟩
  · exact hsame
  · cases hvalue

theorem Proceeds.eq_of_speculate {α : Type} {T : Tracing} {E : Excuse} {solid : Bool}
    {P : α -> Prop} {parser : Parser α} (h : Proceeds T E solid P parser) {c d : Cursor}
    (hc : T.Fits c) (hnone : Parser.speculate parser c = .ok none d) : d = c := by
  have hreply := h c hc
  unfold Parser.speculate at hnone
  cases hparser : parser c with
  | ok value e =>
      rw [hparser] at hnone
      cases hnone
  | error diagnostic e =>
      rw [hparser] at hreply hnone
      rcases hreply with ⟨read, noted, hpassage, _⟩
      cases hnone
      exact Cursor.restore_checkpoint hpassage
  | fault found =>
      rw [hparser] at hnone
      cases hnone

open Grammar in
/-- However a rule ends, as many levels are open as before and no diagnostic from before is
lost; a fault is met only in front of a text token without its quotes.  A trial that gives
nothing, and a function literal or the head of a definition that is not there, leave the
cursor as it was. -/
theorem trials_leave_no_trace (room : Nat) (c : Cursor) (hfinal : c.final.kind = .endOfInput) :
    (forall {α : Type} {solid : Bool} {rule : Level -> Parser α}, Rule solid rule ->
      (rule (Level.ofRoom room) c).Meets
        (fun _ d => d.depth = c.depth ∧ c.errors <+: d.errors)
        (fun d => d.depth = c.depth ∧ c.errors <+: d.errors)
        (fun fault => fault = .unquotedText ∧ exists t, t ∈ c.ahead ∧ ¬ t.Quoted) ∧
      forall d, speculate (rule (Level.ofRoom room)) c = .ok none d -> d = c) ∧
    (forall d, functionLiteral (Level.ofRoom room) c = .ok none d -> d = c) ∧
    forall d, definitionHead? c = .ok none d -> d = c := by
  have hc : (Tracing.idle c.ahead).Fits c := ⟨List.suffix_refl _, hfinal⟩
  have hlevel := @proceeds_idle c.ahead room
  refine ⟨?_, ?_, ?_⟩
  · intro α solid rule hrule
    have hproceeds := hrule.proceeds hlevel
    constructor
    · apply Reply.Meets.mono (hproceeds c hc)
      · exact fun value d hd => hd.1.balanced
      · exact fun d hd => hd.balanced
      · exact fun fault hfault => hfault
    · exact fun d hnone => hproceeds.eq_of_speculate hc hnone
  · exact fun d hnone => (functionLiteral_tries hlevel).eq_of_none hc hnone
  · exact fun d hnone => definitionHead?_tries (E := Excuse.unquotedText).eq_of_none hc hnone

/-- A cursor inside of three levels in front of an opening parenthesis and a name, behind a
statement that was given up. -/
def Cursor.atOpenGroup : Cursor where
  ahead :=
    [{ kind := .mark .openParen, value := "(", span := { start := 4, stop := 5 } },
      { kind := .lowercaseName, value := "x", span := { start := 5, stop := 6 } }]
  final := Token.endAt 6
  previous := { start := 0, stop := 3 }
  errors := [{ cause := .endOfInput "expression", span := { start := 2, stop := 3 } }]
  depth := 3

/-- The parenthesis is not closed, so these are no inputs of a function. -/
theorem trials_leave_no_trace_atOpenGroup : exists d,
    Cursor.atOpenGroup.final.kind = .endOfInput ∧
      speculate (Grammar.functionInputs (Level.ofRoom 2)) Cursor.atOpenGroup = .ok none d ∧
        d = Cursor.atOpenGroup :=
  ⟨_, rfl, rfl, ((trials_leave_no_trace 2 Cursor.atOpenGroup rfl).1
    Grammar.Rule.functionInputs).2 _ rfl⟩

end Linewise
