import Linewise.Grammar.Nesting
import Linewise.Proofs.Placement.Statement
import Linewise.Proofs.Progress.Expression
import Linewise.Proofs.Yield

/-!
# Statements and levels go on

The rules of statements take at least one token that is no comment, and the statements are
traced back.  So the same holds of every level, with a text token that lost its quotes as
the only excuse for a fault.
-/

namespace Linewise

open Linewise.Parser

namespace Grammar

variable {T : Tracing} {E : Excuse} {level : Level}

/-!
## Attributes
-/

theorem attributeName_proceeds : Proceeds T E true (T.Leaf .attributeName) attributeName :=
  Proceeds.leaf rfl _

theorem attributeValue_proceeds {name : Lexeme} {start : Span}
    (hname : T.Leaf .attributeName name) :
    Proceeds T E true (fun found => T.Traces found.node) (attributeValue name start) := by
  apply Proceeds.look
  intro kind
  split
  · apply Proceeds.bind Proceeds.text
    intro value hvalue
    apply Proceeds.step (Proceeds.expectMark _)
    intro _ _
    exact Proceeds.build (fun _ => by simpa [Attribute.node] using ⟨hname, hvalue⟩)
  · apply Proceeds.bind number_proceeds
    intro value hvalue
    apply Proceeds.step (Proceeds.expectMark _)
    intro _ _
    exact Proceeds.build (fun _ => by simpa [Attribute.node] using ⟨hname, hvalue⟩)
  · exact Proceeds.unexpected _

theorem bracketedAttribute_proceeds :
    Proceeds T E true (fun found => T.Traces found.node) bracketedAttribute := by
  apply Proceeds.bind (Proceeds.expectMark _)
  intro opening _
  apply Proceeds.step attributeName_proceeds
  intro name hname
  apply Proceeds.look
  intro valued
  split
  · apply Proceeds.step Proceeds.advance
    intro _ _
    apply Proceeds.step Proceeds.skipLineBreaks
    intro _ _
    exact (attributeValue_proceeds hname).weaken
  · apply Proceeds.step (Proceeds.expectMark _)
    intro _ _
    exact Proceeds.build (fun _ => by simpa [Attribute.node] using hname)

theorem attributeLine_proceeds :
    Proceeds T E true (fun found => T.Traces found.node) attributeLine := by
  apply Proceeds.bind bracketedAttribute_proceeds
  intro found hfound
  apply Proceeds.step Proceeds.skipLineBreaks
  intro _ _
  exact Proceeds.give hfound

theorem attributes_proceeds :
    Proceeds T E false (fun found => forall one, one ∈ found -> T.Traces one.node)
      attributes :=
  Proceeds.repeatWhile attributeLine_proceeds (fun c hend => not_isAt_of_end (by simp) hend)

/-!
## Definitions
-/

theorem fieldDefinition_proceeds (hlevel : level.Proceeds T E) :
    Proceeds T E true (fun field => T.Traces (Representation.fieldNode field))
      (fieldDefinition level) := by
  apply Proceeds.look
  intro start
  apply Proceeds.bind variableName_proceeds
  intro name hname
  apply Proceeds.step (Proceeds.expectMark _)
  intro _ _
  apply Proceeds.step Proceeds.skipLineBreaks
  intro _ _
  apply Proceeds.step (signature_proceeds hlevel)
  intro signature hsignature
  exact Proceeds.build (fun _ => by simpa [Representation.fieldNode] using ⟨hname, hsignature⟩)

theorem variantDefinition_proceeds (hlevel : level.Proceeds T E) :
    Proceeds T E true (fun variant => T.Traces (Representation.variantNode variant))
      (variantDefinition level) := by
  apply Proceeds.look
  intro start
  apply Proceeds.bind variantName_proceeds
  intro name hname
  apply Proceeds.step (subtypes_proceeds hlevel)
  intro elements helements
  exact Proceeds.build (fun _ => by simpa [Representation.variantNode] using ⟨hname, helements⟩)

theorem representation_proceeds (hlevel : level.Proceeds T E) :
    Proceeds T E true (fun body => T.Traces body.node) (representation level) := by
  apply Proceeds.bind (Proceeds.expectMark _)
  intro opening _
  apply Proceeds.step Proceeds.skipLineBreaks
  intro _ _
  apply Proceeds.look
  intro kind
  split
  · apply Proceeds.step (Proceeds.lines (fieldDefinition_proceeds hlevel))
    intro fields hfields
    apply Proceeds.step (Proceeds.expectMark _)
    intro _ _
    exact Proceeds.build (fun _ => by simpa [Representation.node] using hfields)
  · apply Proceeds.step (Proceeds.lines (variantDefinition_proceeds hlevel))
    intro variants hvariants
    apply Proceeds.step (Proceeds.expectMark _)
    intro _ _
    exact Proceeds.build (fun _ => by simpa [Representation.node] using hvariants)
  · exact Proceeds.unexpected _

theorem definitionHead_proceeds :
    Proceeds T E true (fun head => T.TracesAll head.nodes) definitionHead := by
  apply Proceeds.bind typeName_proceeds
  intro name hname
  apply Proceeds.step Proceeds.advance
  intro _ _
  apply Proceeds.step Proceeds.skipLineBreaks
  intro _ _
  apply Proceeds.afterTrial (Proceeds.speculate typeFunction_proceeds)
  · apply Proceeds.look
    intro isType
    apply Proceeds.look
    intro isTrait
    split
    · exact Proceeds.give (by simpa [DefinitionHead.nodes] using hname)
    · exact Proceeds.unexpected _
  · intro parameters hparameters
    apply Proceeds.look
    intro isType
    apply Proceeds.look
    intro isTrait
    split
    · exact Proceeds.give (by simpa [DefinitionHead.nodes] using ⟨hname, hparameters⟩)
    · exact Proceeds.unexpected _

theorem definitionHead?_tries :
    Tries T E (fun head => T.TracesAll head.nodes) definitionHead? := by
  apply Tries.look
  intro possible
  split
  · exact Proceeds.speculate definitionHead_proceeds
  · exact Tries.none

section Definitions

variable {start : Span} {header : Header} {head : DefinitionHead}

theorem typeDefinition_proceeds (hlevel : level.Proceeds T E)
    (hheader : T.TracesAll header.nodes) (hhead : T.TracesAll head.nodes) :
    Proceeds T E true (fun statement => T.Traces statement.node)
      (typeDefinition level start header head) := by
  apply Proceeds.bind (Proceeds.expectReserved _)
  intro _ _
  apply Proceeds.look
  intro braced
  apply Proceeds.optional (representation_proceeds hlevel).present
  intro body hbody
  simp only [DefinitionHead.nodes, Tracing.tracesAll_cons, Tracing.traces_leaf,
    Tracing.tracesAll_option] at hhead
  exact Proceeds.build (fun _ => by
    simpa [Statement.node] using ⟨hheader, hhead.1, hhead.2, hbody⟩)

theorem traitDefinition_proceeds (hlevel : level.Proceeds T E)
    (hheader : T.TracesAll header.nodes) (hhead : T.TracesAll head.nodes) :
    Proceeds T E true (fun statement => T.Traces statement.node)
      (traitDefinition level start header head) := by
  apply Proceeds.bind (Proceeds.expectReserved _)
  intro _ _
  apply Proceeds.look
  intro typed
  apply Proceeds.optional (subtype_proceeds hlevel).present
  intro type htype
  apply Proceeds.step (whereClause_proceeds hlevel)
  intro clause hclause
  simp only [DefinitionHead.nodes, Tracing.tracesAll_cons, Tracing.traces_leaf,
    Tracing.tracesAll_option] at hhead
  exact Proceeds.build (fun _ => by
    simpa [Statement.node] using ⟨hheader, hhead.1, hhead.2, htype, hclause⟩)

theorem constantDefinition_proceeds (hlevel : level.Proceeds T E)
    (hheader : T.TracesAll header.nodes) :
    Proceeds T E true (fun statement => T.Traces statement.node)
      (constantDefinition level start header) := by
  apply Proceeds.bind variableName_proceeds
  intro name hname
  apply Proceeds.step (Proceeds.expectMark _)
  intro _ _
  apply Proceeds.step Proceeds.skipLineBreaks
  intro _ _
  apply Proceeds.step (signature_proceeds hlevel)
  intro signature hsignature
  exact Proceeds.build (fun _ => by simpa [Statement.node] using ⟨hheader, hname, hsignature⟩)

theorem instanceValue_proceeds (hlevel : level.Proceeds T E) :
    Proceeds T E false (fun value => forall found, value = some found -> T.Traces found.node)
      (instanceValue level) := by
  apply Proceeds.look
  intro valued
  split
  · apply Proceeds.step Proceeds.advance
    intro _ _
    apply Proceeds.step Proceeds.skipLineBreaks
    intro _ _
    exact (expression_proceeds hlevel).present.weaken
  · exact Proceeds.give (by simp)

theorem instanceDefinition_proceeds (hlevel : level.Proceeds T E)
    (hheader : T.TracesAll header.nodes) :
    Proceeds T E true (fun statement => T.Traces statement.node)
      (instanceDefinition level start header) := by
  apply Proceeds.bind (Proceeds.expectReserved _)
  intro _ _
  apply Proceeds.step (Proceeds.expectMark _)
  intro _ _
  apply Proceeds.step typeName_proceeds
  intro trait htrait
  apply Proceeds.step (subtype_proceeds hlevel)
  intro first hfirst
  apply Proceeds.step (subtypes_proceeds hlevel)
  intro rest hrest
  apply Proceeds.step (Proceeds.expectMark _)
  intro _ _
  apply Proceeds.step (whereClause_proceeds hlevel)
  intro clause hclause
  apply Proceeds.step (instanceValue_proceeds hlevel)
  intro value hvalue
  exact Proceeds.build (fun _ => by
    simpa [Statement.node] using ⟨hheader, htrait, ⟨hfirst, hrest⟩, hclause, hvalue⟩)

end Definitions

/-!
## Statements
-/

theorem assignmentHead_proceeds (hlevel : level.Proceeds T E) :
    Proceeds T E true (fun pattern => T.Traces pattern.node) (assignmentHead level) := by
  apply Proceeds.bind (pattern_proceeds hlevel)
  intro pattern hpattern
  apply Proceeds.step (Proceeds.expectMark _)
  intro _ _
  exact Proceeds.give hpattern

theorem assignmentOrExpression_proceeds (hlevel : level.Proceeds T E) (start : Span) :
    Proceeds T E true (fun statement => T.Traces statement.node)
      (assignmentOrExpression level start) := by
  apply Proceeds.afterTrial (Proceeds.speculate (assignmentHead_proceeds hlevel))
  · apply Proceeds.bind (expression_proceeds hlevel)
    intro expression hexpression
    exact Proceeds.build (fun _ => by simpa [Statement.node] using hexpression)
  · intro pattern hpattern
    apply Proceeds.step Proceeds.skipLineBreaks
    intro _ _
    apply Proceeds.step (expression_proceeds hlevel)
    intro value hvalue
    exact Proceeds.build (fun _ => by simpa [Statement.node] using ⟨hpattern, hvalue⟩)

theorem plainStatement_proceeds (hlevel : level.Proceeds T E) (start : Span) {header : Header}
    (hheader : T.TracesAll header.nodes) :
    Proceeds T E true (fun statement => T.Traces statement.node)
      (plainStatement level start header) := by
  apply Proceeds.look
  intro constant
  split
  · exact constantDefinition_proceeds hlevel hheader
  · split
    · exact assignmentOrExpression_proceeds hlevel start
    · exact Proceeds.unexpected _

theorem statement_proceeds (hlevel : level.Proceeds T E) {comments : List Lexeme}
    (hcomments : forall comment, comment ∈ comments -> T.Leaf .comment comment) :
    Proceeds T E true (fun statement => T.Traces statement.node) (statement level comments) := by
  apply Proceeds.look
  intro start
  apply Proceeds.step attributes_proceeds
  intro attributes hattributes
  have hheader : T.TracesAll (Header.mk comments attributes).nodes := by
    simpa [Header.nodes] using ⟨hcomments, hattributes⟩
  apply Proceeds.look
  intro isInstance
  split
  · exact instanceDefinition_proceeds hlevel hheader
  · apply Proceeds.afterTrial definitionHead?_tries
    · exact plainStatement_proceeds hlevel start hheader
    · intro head hhead
      apply Proceeds.look
      intro isType
      split
      · exact (typeDefinition_proceeds hlevel hheader hhead).weaken
      · exact (traitDefinition_proceeds hlevel hheader hhead).weaken

/-!
## Levels
-/

theorem proceeds_around {E' : Excuse} (hlevel : level.Proceeds T E)
    (hexcuse : forall (c : Cursor) fault, c.depth < maxDepth ->
      E.For { c with depth := c.depth + 1 } fault -> E'.For c fault)
    (hblock : T.Admits (Level.around level)) : (Level.around level).Proceeds T E' where
  type := Proceeds.nested (functionOrNamedType_proceeds hlevel) hexcuse
  pattern := Proceeds.nested (orPattern_proceeds hlevel) hexcuse
  expression := fun least => Proceeds.nested (binaryExpression_proceeds hlevel least) hexcuse
  statement := fun _ hcomments => Proceeds.nested (statement_proceeds hlevel hcomments) hexcuse
  block := hblock

end Grammar

def Excuse.unquotedText : Excuse where
  For := fun c fault => fault = .unquotedText ∧ exists t, t ∈ c.ahead ∧ ¬ t.Quoted
  unquoted := fun ht hquoted => ⟨rfl, _, ht, hquoted⟩
  behind := by
    rintro c d solid fault ⟨read, noted, hpassage, _⟩ ⟨hfault, t, ht, hquoted⟩
    refine ⟨hfault, t, ?_, hquoted⟩
    rw [hpassage.ahead]
    exact List.mem_append_right read ht

namespace Grammar

variable {T : Tracing}

theorem proceeds_ofRoom (hblock : forall room, T.Admits (Level.ofRoom room)) (room : Nat) :
    (Level.ofRoom room).Proceeds T Excuse.unquotedText := by
  induction room with
  | zero =>
      exact ⟨Proceeds.tooDeep, Proceeds.tooDeep, fun _ => Proceeds.tooDeep,
        fun _ _ => Proceeds.tooDeep, hblock 0⟩
  | succ room ih => exact proceeds_around ih (fun _ _ _ hexcuse => hexcuse) (hblock (room + 1))

/-!
## Source texts
-/

theorem statements_tokenize (source : String) :
    exists found d, statements Level.outermost .endOfInput (Cursor.ofTokens (tokenize source).1) =
      .ok found d ∧ d.kind = .endOfInput := by
  have hlists := statements_lists (keeps_outermost yieldRecovery) (spans_ofRoom _)
    .endOfInput (fits_tokenize source)
  cases hreply : statements Level.outermost .endOfInput
      (Cursor.ofTokens (tokenize source).1) with
  | ok found d =>
      rw [hreply] at hlists
      exact ⟨found, d, rfl, by simpa [atListEnd, Cursor.hasTokens, Cursor.isAt] using hlists.2⟩
  | error diagnostic d =>
      rw [hreply] at hlists
      exact hlists.elim
  | fault fault =>
      rw [hreply] at hlists
      exact hlists.elim

theorem exists_traces {source : String}
    (htext : T.text = (Cursor.ofTokens (tokenize source).1).ahead)
    (hblock : forall room, T.Admits (Level.ofRoom room)) :
    exists parsed d, parse source = .ok parsed ∧
      statements Level.outermost .endOfInput (Cursor.ofTokens (tokenize source).1) =
        .ok parsed.file.statements d ∧
      T.Traces parsed.file.node := by
  rcases statements_tokenize source with ⟨found, d, hreply, _⟩
  have hfits : T.Fits (Cursor.ofTokens (tokenize source).1) :=
    ⟨htext ▸ List.suffix_refl _, Cursor.final_ofTokens _⟩
  have htraced := statements_proceeds (proceeds_ofRoom hblock maxDepth) .endOfInput _ hfits
  change (statements Level.outermost .endOfInput _).Leads _ _ _ _ at htraced
  rw [hreply] at htraced
  have hparsed : parseTokens (tokenize source).1 = .ok
      { file := { statements := found, span := Span.between 0 d.current.span.stop },
        errors := d.errors } := by
    simp only [parseTokens, hreply]
  exact ⟨_, d, parse_eq hparsed, hreply, by simpa [SourceFile.node] using htraced.2⟩

/-- What is asked of a single node holds of all nodes of a source text. -/
theorem exists_traced {source : String}
    (htext : T.text = (Cursor.ofTokens (tokenize source).1).ahead)
    (hblock : forall room, T.Admits (Level.ofRoom room)) :
    exists parsed d, parse source = .ok parsed ∧
      statements Level.outermost .endOfInput (Cursor.ofTokens (tokenize source).1) =
        .ok parsed.file.statements d ∧
      forall n, n ∈ parsed.file.node.subtrees -> T.Sees n := by
  rcases exists_traces htext hblock with ⟨parsed, d, hparsed, hreply, htraced⟩
  exact ⟨parsed, d, hparsed, hreply, fun n hn => (htraced n hn).1⟩

end Grammar

end Linewise
