import Linewise.Tree.Node

/-!
# Outlines

The outline of a tree is its shape without spans: forms with a tag and items, of
which the innermost are plain words.  It is written with parentheses, the items
of a form behind its tag.
-/

namespace Linewise

inductive Outline where
  | word (text : String)
  | form (tag : String) (items : List Outline)

namespace Outline

mutual

def render : Outline -> String
  | .word text => text
  | .form tag items => "(" ++ tag ++ renderItems items ++ ")"

def renderItems : List Outline -> String
  | [] => ""
  | item :: rest => " " ++ render item ++ renderItems rest

end

def renderRow : List Outline -> String
  | [] => ""
  | item :: rest => item.render ++ renderItems rest

end Outline

namespace Node

mutual

/-- What is shown of a node: one form, one word, or, for a group, what is shown
of its children. -/
def outlines : Node -> List Outline
  | .leaf kind lexeme => [.form kind.tag [.word (kind.shown lexeme.value)]]
  | .bare kind lexeme => [.word (kind.shown lexeme.value)]
  | .branch tag _ children => [.form tag (outlinesOfAll children)]
  | .group _ _ children => outlinesOfAll children

def outlinesOfAll : List Node -> List Outline
  | [] => []
  | node :: rest => outlines node ++ outlinesOfAll rest

end

def render (node : Node) : String := Outline.renderRow node.outlines

end Node

end Linewise
