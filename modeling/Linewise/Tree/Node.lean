import Linewise.Token.Basic

/-!
# The common view of trees

Every tree can be seen as a node with a tag, a span and children.  Leaves are
lexemes; some are shown under their tag, others as their bare text.  A group is
listed like any other node and leaves no trace in the outline but its children.
-/

namespace Linewise

inductive LeafKind where
  | typeName
  | variantName
  | variableName
  | typeParameterName
  | attributeName
  | number
  | text
  | comment
deriving DecidableEq

namespace LeafKind

def tag : LeafKind -> String
  | .typeName => "type_name"
  | .variantName => "variant_name"
  | .variableName => "variable_name"
  | .typeParameterName => "type_parameter_name"
  | .attributeName => "attribute_name"
  | .number => "number"
  | .text => "text"
  | .comment => "comment"

/-- How the value of a leaf is shown: texts and comments between quotes, all
others as they are. -/
def shown (kind : LeafKind) (value : String) : String :=
  match kind with
  | .text => Text.quoted value
  | .comment => Text.quoted value
  | _ => value

end LeafKind

inductive Node where
  /-- A leaf that is shown under its tag. -/
  | leaf (kind : LeafKind) (lexeme : Lexeme)
  /-- A leaf that is shown as its value only. -/
  | bare (kind : LeafKind) (lexeme : Lexeme)
  | branch (tag : String) (span : Span) (children : List Node)
  /-- A node of which only the children are shown. -/
  | group (tag : String) (span : Span) (children : List Node)

namespace Node

def tag : Node -> String
  | .leaf kind _ => kind.tag
  | .bare kind _ => kind.tag
  | .branch tag _ _ => tag
  | .group tag _ _ => tag

def span : Node -> Span
  | .leaf _ lexeme => lexeme.span
  | .bare _ lexeme => lexeme.span
  | .branch _ span _ => span
  | .group _ span _ => span

/-!
## The listing

All nodes of a tree, each before its children.
-/

mutual

def listing : Node -> List (String × Span)
  | .leaf kind lexeme => [(kind.tag, lexeme.span)]
  | .bare kind lexeme => [(kind.tag, lexeme.span)]
  | .branch tag span children => (tag, span) :: listings children
  | .group tag span children => (tag, span) :: listings children

def listings : List Node -> List (String × Span)
  | [] => []
  | node :: rest => listing node ++ listings rest

end

/-!
## Equality
-/

mutual

def same : Node -> Node -> Bool
  | .leaf kind lexeme, .leaf kind' lexeme' => kind == kind' && lexeme == lexeme'
  | .bare kind lexeme, .bare kind' lexeme' => kind == kind' && lexeme == lexeme'
  | .branch tag span children, .branch tag' span' children' =>
      tag == tag' && span == span' && sames children children'
  | .group tag span children, .group tag' span' children' =>
      tag == tag' && span == span' && sames children children'
  | _, _ => false

def sames : List Node -> List Node -> Bool
  | [], [] => true
  | node :: rest, node' :: rest' => same node node' && sames rest rest'
  | _, _ => false

end

mutual

theorem same_iff (a b : Node) : same a b = true <-> a = b := by
  cases a with
  | leaf kind lexeme => cases b <;> simp [same]
  | bare kind lexeme => cases b <;> simp [same]
  | branch tag span children =>
      cases b with
      | branch tag' span' children' =>
          simp [same, sames_iff children children', and_assoc]
      | _ => simp [same]
  | group tag span children =>
      cases b with
      | group tag' span' children' =>
          simp [same, sames_iff children children', and_assoc]
      | _ => simp [same]

theorem sames_iff (as bs : List Node) : sames as bs = true <-> as = bs := by
  cases as with
  | nil => cases bs <;> simp [sames]
  | cons a as =>
      cases bs with
      | nil => simp [sames]
      | cons b bs => simp [sames, same_iff a b, sames_iff as bs]

end

instance : DecidableEq Node := fun a b => decidable_of_iff _ (same_iff a b)

end Node

end Linewise
