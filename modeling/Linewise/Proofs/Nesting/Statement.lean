import Linewise.Proofs.Nesting.Expression
import Linewise.Proofs.Parallel.Correspondence

/-!
# The heights of statements and files

Each of the levels that may nest adds no more than a fixed number of nodes, so there is one
bound for the trees of all inputs.
-/

namespace Linewise
namespace Grammar

open Linewise.Node (height_branch_le)

variable {n : Nat} {level : Level}

/-!
## Definitions
-/

theorem attributes_makes :
    Makes (fun attributes => forall found : Attribute, found ∈ attributes ->
      found.node.height <= n + 2) attributes := by
  apply Makes.repeatWhile
  apply Makes.bind (P := fun found : Attribute => found.node.height <= n + 2)
  · apply Makes.pass (Makes.expect _)
    intro opening
    apply Makes.pass (Makes.leaf _ _)
    intro name
    apply Makes.look
    intro valued
    split
    · apply Makes.pass Makes.advance
      intro _
      apply Makes.pass Makes.skipLineBreaks
      intro _
      apply Makes.look
      intro kind
      split
      · apply Makes.pass Makes.text
        intro value
        apply Makes.pass (Makes.expect _)
        intro _
        exact Makes.build (fun _ => height_branch_le (by grind))
      · apply Makes.pass (Makes.leaf _ _)
        intro value
        apply Makes.pass (Makes.expect _)
        intro _
        exact Makes.build (fun _ => height_branch_le (by grind))
      · exact Makes.unexpected _
    · apply Makes.pass (Makes.expect _)
      intro _
      exact Makes.build (fun _ => height_branch_le (by grind))
  · intro found hfound
    apply Makes.pass Makes.skipLineBreaks
    intro _
    exact Makes.give hfound

theorem fieldDefinition_makes (hlevel : level.Bounded n) :
    Makes (fun field => (Representation.fieldNode field).height <= n + 6)
      (fieldDefinition level) := by
  apply Makes.look
  intro start
  apply Makes.pass (Makes.leaf _ _)
  intro name
  apply Makes.pass (Makes.expect _)
  intro _
  apply Makes.pass Makes.skipLineBreaks
  intro _
  apply Makes.bind (signature_makes hlevel)
  intro signature hsignature
  exact Makes.build (fun _ => height_branch_le (by grind))

theorem variantDefinition_makes (hlevel : level.Bounded n) :
    Makes (fun variant => (Representation.variantNode variant).height <= n + 6)
      (variantDefinition level) := by
  apply Makes.look
  intro start
  apply Makes.pass (Makes.leaf _ _)
  intro name
  apply Makes.bind (subtypes_makes hlevel)
  intro elements helements
  exact Makes.build (fun _ => height_branch_le (by grind))

theorem representation_makes (hlevel : level.Bounded n) :
    Makes (fun body => body.node.height <= n + 7) (representation level) := by
  apply Makes.pass (Makes.expect _)
  intro opening
  apply Makes.pass Makes.skipLineBreaks
  intro _
  apply Makes.look
  intro kind
  split
  · apply Makes.bind (Makes.lines (fieldDefinition_makes hlevel))
    intro fields hfields
    apply Makes.pass (Makes.expect _)
    intro _
    exact Makes.build (fun _ => height_branch_le (Node.low_map.mpr hfields))
  · apply Makes.bind (Makes.lines (variantDefinition_makes hlevel))
    intro variants hvariants
    apply Makes.pass (Makes.expect _)
    intro _
    exact Makes.build (fun _ => height_branch_le (Node.low_map.mpr hvariants))
  · exact Makes.unexpected _

theorem low_header {header : Header}
    (h : forall found : Attribute, found ∈ header.attributes -> found.node.height <= n + 2) :
    Node.Low (n + 7) header.nodes := by
  have hlow : Node.Low (n + 2) header.nodes := by
    rw [Header.nodes, Node.low_append, Node.low_map, Node.low_map]
    exact ⟨fun comment _ => by grind, h⟩
  exact hlow.mono (by omega)

theorem definitionHead_makes :
    Makes (fun head => forall parameters, head.parameters = some parameters ->
      parameters.node.height <= n + 3) definitionHead := by
  apply Makes.pass (Makes.leaf _ _)
  intro name
  apply Makes.pass Makes.advance
  intro _
  apply Makes.pass Makes.skipLineBreaks
  intro _
  apply Makes.bind (Makes.speculate typeFunction_makes)
  intro parameters hparameters
  apply Makes.look
  intro isType
  apply Makes.look
  intro isTrait
  split
  · exact Makes.give hparameters
  · exact Makes.unexpected _

section Definitions

variable {start : Span} {header : Header} {head : DefinitionHead}

theorem typeDefinition_makes (hlevel : level.Bounded n) (hheader : Node.Low (n + 7) header.nodes)
    (hhead : forall parameters, head.parameters = some parameters ->
      parameters.node.height <= n + 3) :
    Makes (fun statement => statement.node.height <= n + 8)
      (typeDefinition level start header head) := by
  apply Makes.pass (Makes.expect _)
  intro _
  apply Makes.look
  intro braced
  apply Makes.optional (representation_makes hlevel).present
  intro body hbody
  exact Makes.build (fun _ => height_branch_le (by grind))

theorem traitDefinition_makes (hlevel : level.Bounded n)
    (hheader : Node.Low (n + 7) header.nodes)
    (hhead : forall parameters, head.parameters = some parameters ->
      parameters.node.height <= n + 3) :
    Makes (fun statement => statement.node.height <= n + 8)
      (traitDefinition level start header head) := by
  apply Makes.pass (Makes.expect _)
  intro _
  apply Makes.look
  intro typed
  apply Makes.optional (subtype_makes hlevel).present
  intro type htype
  apply Makes.bind (whereClause_makes hlevel)
  intro clause hclause
  exact Makes.build (fun _ => height_branch_le (by grind))

theorem constantDefinition_makes (hlevel : level.Bounded n)
    (hheader : Node.Low (n + 7) header.nodes) :
    Makes (fun statement => statement.node.height <= n + 8)
      (constantDefinition level start header) := by
  apply Makes.pass (Makes.leaf _ _)
  intro name
  apply Makes.pass (Makes.expect _)
  intro _
  apply Makes.pass Makes.skipLineBreaks
  intro _
  apply Makes.bind (signature_makes hlevel)
  intro signature hsignature
  exact Makes.build (fun _ => height_branch_le (by grind))

theorem instanceValue_makes (hlevel : level.Bounded n) :
    Makes (fun value => forall found, value = some found -> found.node.height <= n + 1)
      (instanceValue level) := by
  apply Makes.look
  intro valued
  split
  · apply Makes.pass Makes.advance
    intro _
    apply Makes.pass Makes.skipLineBreaks
    intro _
    exact (expression_makes hlevel).present
  · exact Makes.give (by simp)

theorem instanceDefinition_makes (hlevel : level.Bounded n)
    (hheader : Node.Low (n + 7) header.nodes) :
    Makes (fun statement => statement.node.height <= n + 8)
      (instanceDefinition level start header) := by
  apply Makes.pass (Makes.expect _)
  intro _
  apply Makes.pass (Makes.expect _)
  intro _
  apply Makes.pass (Makes.leaf _ _)
  intro trait
  apply Makes.bind (subtype_makes hlevel)
  intro first hfirst
  apply Makes.bind (subtypes_makes hlevel)
  intro rest hrest
  apply Makes.pass (Makes.expect _)
  intro _
  apply Makes.bind (whereClause_makes hlevel)
  intro clause hclause
  apply Makes.bind (instanceValue_makes hlevel)
  intro value hvalue
  exact Makes.build (fun _ => height_branch_le (by grind))

end Definitions

/-!
## Statements
-/

theorem assignmentOrExpression_makes (hlevel : level.Bounded n) (start : Span) :
    Makes (fun statement => statement.node.height <= n + 8)
      (assignmentOrExpression level start) := by
  have hhead : Makes (fun pattern => pattern.node.height <= n + 1) (assignmentHead level) := by
    apply Makes.bind (pattern_makes hlevel)
    intro pattern hpattern
    apply Makes.pass (Makes.expect _)
    intro _
    exact Makes.give hpattern
  apply Makes.bind hhead.speculate
  intro pattern hpattern
  cases pattern with
  | some pattern =>
      have hpattern := hpattern pattern rfl
      apply Makes.pass Makes.skipLineBreaks
      intro _
      apply Makes.bind (expression_makes hlevel)
      intro value hvalue
      exact Makes.build (fun _ => height_branch_le (by grind))
  | none =>
      apply Makes.bind (expression_makes hlevel)
      intro expression hexpression
      exact Makes.build (fun _ => height_branch_le (by grind))

theorem statement_makes (hlevel : level.Bounded n) (comments : List Lexeme) :
    Makes (fun statement => statement.node.height <= n + 8) (statement level comments) := by
  apply Makes.look
  intro start
  apply Makes.bind (attributes_makes (n := n))
  intro attributes hattributes
  have hheader : Node.Low (n + 7) (Header.mk comments attributes).nodes := low_header hattributes
  apply Makes.look
  intro isInstance
  split
  · exact instanceDefinition_makes hlevel hheader
  · have hhead : Makes (fun head => forall found, head = some found ->
        forall parameters, found.parameters = some parameters ->
          parameters.node.height <= n + 3) definitionHead? := by
      apply Makes.look
      intro possible
      split
      · exact Makes.speculate definitionHead_makes
      · exact Makes.give (by simp)
    apply Makes.bind hhead
    intro head hhead
    cases head with
    | some head =>
        apply Makes.look
        intro isType
        split
        · exact typeDefinition_makes hlevel hheader (hhead head rfl)
        · exact traitDefinition_makes hlevel hheader (hhead head rfl)
    | none =>
        apply Makes.look
        intro constant
        split
        · exact constantDefinition_makes hlevel hheader
        · split
          · exact assignmentOrExpression_makes hlevel start
          · exact Makes.unexpected _

/-!
## Levels
-/

theorem bounded_around (hlevel : level.Bounded n) : (Level.around level).Bounded (n + 8) where
  type := Makes.nested (functionOrNamedType_makes hlevel)
  pattern := Makes.nested (orPattern_makes hlevel)
  expression := fun least => Makes.nested (binaryExpression_makes hlevel least)
  statement := fun comments => Makes.nested (statement_makes hlevel comments)

theorem bounded_ofRoom (room : Nat) : (Level.ofRoom room).Bounded (8 * room) := by
  induction room with
  | zero =>
      exact ⟨Makes.tooDeep, Makes.tooDeep, fun _ => Makes.tooDeep, fun _ => Makes.tooDeep⟩
  | succ room ih => exact bounded_around ih

end Grammar

open Linewise.Parser (Visits)

/-- There is a bound on the height of the trees of all lists of tokens, and at no moment of
reading one are more levels open than may nest. -/
theorem parseTokens_nesting_bounded : exists bound, forall tokens : List Token,
    (forall t, t ∈ tokens -> t.Quoted) ->
      exists parsed, parseTokens tokens = .ok parsed ∧ parsed.file.node.height <= bound ∧
        (exists moments, Visits (Grammar.statements Level.outermost .endOfInput)
          (Cursor.ofTokens tokens) moments) ∧
        forall moments, Visits (Grammar.statements Level.outermost .endOfInput)
          (Cursor.ofTokens tokens) moments ->
            forall m, m ∈ moments -> m.depth <= Parser.maxDepth := by
  have hmakes := Grammar.statements_makes (Grammar.bounded_ofRoom Parser.maxDepth) .endOfInput
  exists 8 * Parser.maxDepth + 2
  intro tokens hquoted
  have hfits : plainRecovery.Fits (Cursor.ofTokens tokens) :=
    ⟨fun t ht => hquoted t (Cursor.mem_of_mem_ahead ht), Cursor.final_ofTokens _⟩
  rcases parseTokens_lists plainRecovery hfits with ⟨parsed, _, _, hparsed, _⟩
  refine ⟨parsed, hparsed, ?_, hmakes.visits _, ?_⟩
  · apply Node.height_branch_le
    rw [Statement.low_nodes]
    unfold parseTokens at hparsed
    split at hparsed
    · rename_i found d hfound
      cases hparsed
      exact hmakes.holds _ found d hfound
    · cases hparsed
      simp
    · cases hparsed
  · intro moments hvisits
    apply hvisits.preserves Parser.stable_depth
    rw [Cursor.depth_ofTokens]
    exact Nat.zero_le _

/-- Braces in braces, of which each pair opens two levels. -/
def nestedBraces (count : Nat) : List Token :=
  List.replicate count ⟨⟨"\x7b", ⟨0, 1⟩⟩, .mark .openCurly⟩ ++
    (List.replicate count ⟨⟨"\x7d", ⟨1, 2⟩⟩, .mark .closeCurly⟩ ++ [Token.endAt 2])

theorem quoted_nestedBraces (count : Nat) : forall t, t ∈ nestedBraces count -> t.Quoted := by
  intro t ht hkind
  simp only [nestedBraces, List.mem_append, List.mem_replicate, List.mem_singleton] at ht
  rcases ht with ⟨_, rfl⟩ | ⟨_, rfl⟩ | rfl <;> cases hkind

/-- The levels end in front of the innermost of these braces: it is given up, and the tree
around it stands. -/
theorem parseTokens_nesting_bounded_braces : exists bound parsed,
    parseTokens (nestedBraces 33) = .ok parsed ∧
      parsed.errors.map Diagnostic.cause = [.nestingTooDeep Parser.maxDepth] ∧
      parsed.file.node.height = 66 ∧ parsed.file.node.height <= bound ∧
      (exists moments, Visits (Grammar.statements Level.outermost .endOfInput)
        (Cursor.ofTokens (nestedBraces 33)) moments) ∧
      forall moments, Visits (Grammar.statements Level.outermost .endOfInput)
        (Cursor.ofTokens (nestedBraces 33)) moments ->
          forall m, m ∈ moments -> m.depth <= Parser.maxDepth := by
  rcases parseTokens_nesting_bounded with ⟨bound, hbound⟩
  rcases hbound _ (quoted_nestedBraces 33) with ⟨parsed, hparsed, hheight, hmoments, hdepth⟩
  have hfound : (parseTokens (nestedBraces 33)).toOption.map (fun parsed =>
      (parsed.errors.map Diagnostic.cause, parsed.file.node.height)) =
        some ([.nestingTooDeep Parser.maxDepth], 66) := by
    decide +kernel
  rw [hparsed] at hfound
  rcases Prod.mk.inj (Option.some.inj hfound) with ⟨herrors, hexact⟩
  exact ⟨bound, parsed, hparsed, herrors, hexact, hheight, hmoments, hdepth⟩

end Linewise
