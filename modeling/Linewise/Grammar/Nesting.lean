import Linewise.Grammar.Statement

/-!
# Nesting

The levels of the grammar, built from the inside out.  At the innermost level
nothing more may be opened.  As many levels are built as may nest, so the limit
is met before they run out.
-/

namespace Linewise

namespace Level

def innermost : Level where
  statement := fun _ => Parser.tooDeep
  expression := fun _ => Parser.tooDeep
  pattern := Parser.tooDeep
  type := Parser.tooDeep

def around (inner : Level) : Level where
  statement := fun comments => Parser.nested (Grammar.statement inner comments)
  expression := fun least => Parser.nested (Grammar.binaryExpression inner least)
  pattern := Parser.nested (Grammar.orPattern inner)
  type := Parser.nested (Grammar.functionOrNamedType inner)

def ofRoom : Nat -> Level
  | 0 => innermost
  | room + 1 => around (ofRoom room)

def outermost : Level := ofRoom Parser.maxDepth

end Level

end Linewise
