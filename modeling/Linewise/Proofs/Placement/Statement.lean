import Linewise.Proofs.Placement.Expression

/-!
# Definitions in their places

The nodes of statements sit in the tokens that were read for them, below the comments
in front of them.  By induction on the levels that may be opened, every rule of the
grammar places the nodes of its value.
-/

namespace Linewise

theorem Expression.optionNodes_eq_toList (value : Option Expression) :
    Expression.optionNodes value = (value.map Expression.node).toList := by
  cases value with
  | none => rfl
  | some value => rfl

namespace Grammar

open Linewise.Parser
open Linewise.Places

variable {text : List Token} {level : Level} {c : Cursor}

/-!
## Attributes
-/

theorem attributeValue_builds (name : Lexeme) :
    Builds text c true [.leaf .attributeName name] (attributeValue name c.current.span)
      (fun found => [found.node]) := by
  apply Builds.look
  intro kind
  split
  · apply Builds.bind (quotedText (Node.leaf_marks .text (by decide)))
    intro value
    apply Builds.pass (expectMark .closeBracket)
    intro _
    exact Builds.branch (Or.inl rfl) (fun _ => rfl)
  · apply Builds.bind (lexeme rfl _ (Node.leaf_marks .number (by decide)))
    intro value
    apply Builds.pass (expectMark .closeBracket)
    intro _
    exact Builds.branch (Or.inl rfl) (fun _ => rfl)
  · exact Builds.unexpected _ _

theorem bracketedAttribute_places :
    Places text true bracketedAttribute (fun found => [found.node]) := by
  apply opening rfl
  intro c
  apply Builds.bind (lexeme rfl _ (Node.leaf_marks .attributeName (by decide)))
  intro name
  apply Builds.look
  intro valued
  split
  · apply Builds.pass advance
    intro _
    apply Builds.pass skipLineBreaks
    intro _
    exact attributeValue_builds name
  · apply Builds.pass (expectMark .closeBracket)
    intro _
    exact Builds.branch (Or.inl rfl) (fun _ => rfl)

theorem attributes_places :
    Places text false attributes (List.map Attribute.node) := by
  have hline : Places text false attributeLine (fun found => [found.node]) := by
    apply ofBuilds
    intro c
    apply Builds.bind bracketedAttribute_places
    intro found
    apply Builds.pass skipLineBreaks
    intro _
    exact Builds.give rfl
  intro c found d hc hfound
  rw [List.map_eq_flatMap]
  exact repeatWhile hline c found d hc hfound

/-!
## Definitions
-/

theorem fieldDefinition_places (hlevel : level.Places text) :
    Places text false (fieldDefinition level)
      (fun field => [Representation.fieldNode field]) := by
  apply start
  intro c
  apply Builds.bind (lexeme rfl _ (Node.leaf_marks .variableName (by decide)))
  intro name
  apply Builds.pass (expectMark .doubleColon)
  intro _
  apply Builds.pass skipLineBreaks
  intro _
  apply Builds.bind (signature_places hlevel)
  intro signature
  exact Builds.branch (Or.inr (List.cons_ne_nil _ _)) (fun _ => rfl)

theorem variantDefinition_places (hlevel : level.Places text) :
    Places text false (variantDefinition level)
      (fun variant => [Representation.variantNode variant]) := by
  apply start
  intro c
  apply Builds.bind (lexeme rfl _ (Node.leaf_marks .variantName (by decide)))
  intro name
  apply Builds.bind (subtypes_places hlevel)
  intro elements
  exact Builds.branch (Or.inr (List.cons_ne_nil _ _)) (fun _ => rfl)

theorem representation_places (hlevel : level.Places text) :
    Places text true (representation level) (fun found => [found.node]) := by
  apply opening rfl
  intro c
  apply Builds.pass skipLineBreaks
  intro _
  apply Builds.look
  intro kind
  split
  · apply Builds.bind (lines (fieldDefinition_places hlevel))
    intro fields
    apply Builds.pass (expectMark .closeCurly)
    intro _
    rw [← List.map_eq_flatMap]
    exact Builds.branch (Or.inl rfl) (fun _ => rfl)
  · apply Builds.bind (lines (variantDefinition_places hlevel))
    intro variants
    apply Builds.pass (expectMark .closeCurly)
    intro _
    rw [← List.map_eq_flatMap]
    exact Builds.branch (Or.inl rfl) (fun _ => rfl)
  · exact Builds.unexpected _ _

def DefinitionHead.nodes (head : DefinitionHead) : List Node :=
  .leaf .typeName head.name :: (head.parameters.map TypeFunction.node).toList

theorem definitionHead_places : Places text false definitionHead DefinitionHead.nodes := by
  apply ofBuilds
  intro c
  apply Builds.bind (lexeme rfl _ (Node.leaf_marks .typeName (by decide)))
  intro name
  apply Builds.pass advance
  intro _
  apply Builds.pass skipLineBreaks
  intro _
  apply Builds.bind (speculate typeFunction_reads typeFunction_places)
  intro parameters
  rw [ofOption_eq_toList]
  apply Builds.look
  intro isType
  apply Builds.look
  intro isTrait
  split
  · exact Builds.give rfl
  · exact Builds.unexpected _ _

theorem definitionHead?_places :
    Places text false definitionHead? (ofOption DefinitionHead.nodes) := by
  intro c head d hc hhead
  rcases bind_eq_ok.mp hhead with ⟨possible, e, hpossible, hrest⟩
  cases hpossible
  split at hrest
  · rename_i hpair
    exact speculateAt hc definitionHead_reads ⟨hc.fits.final, hpair⟩ definitionHead_places hrest
  · cases hrest
    exact Reached.refl hc

variable {comments : List Lexeme} {attributes : List Attribute}

theorem typeDefinition_builds (hlevel : level.Places text)
    (hcomments : Above text c.current.span.start comments) (head : DefinitionHead) :
    Builds text c false (attributes.map Attribute.node ++ head.nodes)
      (typeDefinition level c.current.span { comments, attributes } head)
      (fun found => [found.node]) := by
  apply Builds.pass (expectReserved .typeWord)
  intro _
  apply Builds.look
  intro braced
  apply Builds.optional (map (representation_places hlevel) (fun _ => rfl))
  intro body
  apply Builds.branchBelow "type_definition_statement" hcomments (Or.inl rfl)
  intro span
  simp [Statement.node, Header.nodes, DefinitionHead.nodes, ofOption_eq_toList]

theorem traitDefinition_builds (hlevel : level.Places text)
    (hcomments : Above text c.current.span.start comments) (head : DefinitionHead) :
    Builds text c false (attributes.map Attribute.node ++ head.nodes)
      (traitDefinition level c.current.span { comments, attributes } head)
      (fun found => [found.node]) := by
  apply Builds.pass (expectReserved .traitWord)
  intro _
  apply Builds.look
  intro typed
  apply Builds.optional (map (subtype_places hlevel) (fun _ => rfl))
  intro type
  apply Builds.bind (whereClause_places hlevel)
  intro clause
  apply Builds.branchBelow "trait_definition_statement" hcomments (Or.inl rfl)
  intro span
  simp [Statement.node, Header.nodes, DefinitionHead.nodes, ofOption_eq_toList]

theorem constantDefinition_builds (hlevel : level.Places text)
    (hcomments : Above text c.current.span.start comments) :
    Builds text c false (attributes.map Attribute.node)
      (constantDefinition level c.current.span { comments, attributes })
      (fun found => [found.node]) := by
  apply Builds.bind (lexeme rfl _ (Node.leaf_marks .variableName (by decide)))
  intro name
  apply Builds.pass (expectMark .doubleColon)
  intro _
  apply Builds.pass skipLineBreaks
  intro _
  apply Builds.bind (signature_places hlevel)
  intro signature
  apply Builds.branchBelow "constant_definition_statement" hcomments (Or.inl rfl)
  intro span
  simp [Statement.node, Header.nodes]

theorem instanceValue_places (hlevel : level.Places text) :
    Places text false (instanceValue level) (ofOption (fun value => [value.node])) := by
  apply Places.look
  intro valued
  split
  · apply ofBuilds
    intro c
    apply Builds.pass advance
    intro _
    apply Builds.pass skipLineBreaks
    intro _
    exact Builds.last (map (expression_places hlevel) (fun _ => rfl))
  · apply ofBuilds
    intro c
    exact Builds.give rfl

theorem instanceDefinition_builds (hlevel : level.Places text)
    (hcomments : Above text c.current.span.start comments) :
    Builds text c false (attributes.map Attribute.node)
      (instanceDefinition level c.current.span { comments, attributes })
      (fun found => [found.node]) := by
  apply Builds.pass (expectReserved .instanceWord)
  intro _
  apply Builds.pass (expectMark .openParen)
  intro _
  apply Builds.bind (lexeme rfl _ (Node.leaf_marks .typeName (by decide)))
  intro trait
  apply Builds.bind (subtype_places hlevel)
  intro first
  apply Builds.bind (subtypes_places hlevel)
  intro rest
  apply Builds.pass (expectMark .closeParen)
  intro _
  apply Builds.bind (whereClause_places hlevel)
  intro clause
  apply Builds.bind (instanceValue_places hlevel)
  intro value
  apply Builds.branchBelow "instance_definition_statement" hcomments (Or.inl rfl)
  intro span
  simp [Statement.node, Header.nodes, TypeExpr.nodes, ofOption_eq_toList,
    Expression.optionNodes_eq_toList]

/-!
## Statements
-/

theorem assignmentHead_places (hlevel : level.Places text) :
    Places text false (assignmentHead level) (fun pattern => [pattern.node]) := by
  apply ofBuilds
  intro c
  apply Builds.bind (pattern_places hlevel)
  intro pattern
  apply Builds.pass (expectMark .colon)
  intro _
  exact Builds.give rfl

theorem assignmentOrExpression_builds (hlevel : level.Places text) :
    Builds text c false [] (assignmentOrExpression level c.current.span)
      (fun found => [found.node]) := by
  apply Builds.bind (speculate (assignmentHead_reads hlevel.keeps) (assignmentHead_places hlevel))
  intro pattern
  cases pattern with
  | some pattern =>
      apply Builds.pass skipLineBreaks
      intro _
      apply Builds.bind (expression_places hlevel)
      intro value
      exact Builds.branch (Or.inr (List.cons_ne_nil _ _)) (fun _ => rfl)
  | none =>
      apply Builds.bind (expression_places hlevel)
      intro expression
      exact Builds.branch (Or.inr (List.cons_ne_nil _ _)) (fun _ => rfl)

theorem plainStatement_builds (hlevel : level.Places text)
    (hcomments : Above text c.current.span.start comments) :
    Builds text c false (attributes.map Attribute.node)
      (plainStatement level c.current.span { comments, attributes })
      (fun found => [found.node]) := by
  apply Builds.look
  intro constant
  split
  · exact constantDefinition_builds hlevel hcomments
  · split
    · rename_i hnone
      have hempty : attributes = [] := List.isEmpty_iff.mp hnone
      rw [hempty]
      exact assignmentOrExpression_builds hlevel
    · exact Builds.unexpected _ _

theorem statement_places (hlevel : level.Places text) {found : Statement} {d : Cursor}
    (hc : c.Within text) (hcomments : Above text c.current.span.start comments)
    (h : statement level comments c = .ok found d) : Reached text c false [found.node] d := by
  apply startAt hc _ h
  apply Builds.bind attributes_places
  intro attributes
  apply Builds.look
  intro isInstance
  split
  · exact instanceDefinition_builds hlevel hcomments
  · apply Builds.bind definitionHead?_places
    intro head
    cases head with
    | some head =>
        apply Builds.look
        intro isType
        split
        · exact typeDefinition_builds hlevel hcomments head
        · exact traitDefinition_builds hlevel hcomments head
    | none =>
        rw [ofOption, List.append_nil]
        exact plainStatement_builds hlevel hcomments

/-!
## Levels
-/

theorem places_ofRoom (text : List Token) (room : Nat) : (Level.ofRoom room).Places text := by
  have hkeeps := keeps_recovery plainRecovery
  induction room with
  | zero =>
      exact
        { keeps := hkeeps 0
          type := Places.tooDeep
          pattern := Places.tooDeep
          expression := fun _ => Places.tooDeep
          statement := by
            intro comments c found d _ _ h
            cases h }
  | succ room ih =>
      exact
        { keeps := hkeeps (room + 1)
          type := nested (functionOrNamedType_places ih)
          pattern := nested (orPattern_places ih)
          expression := fun least => nested (binaryExpression_places ih least)
          statement := by
            intro comments c found d hc hcomments h
            apply nestedAt hc _ h
            intro inner e hinner hstatement
            exact statement_places ih hinner hcomments hstatement }

end Grammar
end Linewise
